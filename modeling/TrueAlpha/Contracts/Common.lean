import TrueAlpha.Lib.Json

/-!
# Identities of the contracts

The texts that a contract field accepts, and `identify`: the hash of a record is that of its canonical content, and its
id is the hash under a prefix.
-/

namespace TrueAlpha.Contracts

def require (condition : Bool) (reason : String) : Except String Unit := if condition then .ok () else .error reason

theorem require_eq_ok_iff {condition : Bool} {reason : String} : require condition reason = .ok () ↔ condition := by
  cases condition <;> simp [require]

def isHexDigit (c : Char) : Bool := ('0' ≤ c && c ≤ '9') || ('a' ≤ c && c ≤ 'f')

/-- `^[0-9a-f]{64}$`. -/
def isDigest (text : List Char) : Bool := text.length == 64 && text.all isHexDigit

def isSha256 (value : String) : Bool := isDigest value.toList

/-- `^kind:[0-9a-f]{64}$`. -/
def isContentId (kind value : String) : Bool :=
  let head := (kind ++ ":").toList
  value.toList.take head.length == head && isDigest (value.toList.drop head.length)

/-- `[A-Za-z0-9]`. -/
def isAsciiAlnum (c : Char) : Bool := ('A' ≤ c && c ≤ 'Z') || ('a' ≤ c && c ≤ 'z') || ('0' ≤ c && c ≤ '9')

def isStableId (value : String) : Bool :=
  match value.toList with
  | [] => false
  | first :: rest => isAsciiAlnum first && rest.all fun c => isAsciiAlnum c || c ∈ ['.', '_', ':', '/', '@', '+', '-']

/-- `re.split(r"[._:/@+-]", value.lower())` without the empty tokens. -/
def versionTokens (value : String) : List String :=
  ((((value.toList.map Char.toLower).splitOnP (· ∈ ['.', '_', ':', '/', '@', '+', '-'])).filter (· ≠ [])).map
    String.ofList)

def mutableVersionTokens : List String := ["latest", "current", "default", "stable", "main", "head"]

def isMutableVersion (value : String) : Bool := (versionTokens value).any (· ∈ mutableVersionTokens)

def identify (canonicalSha256 : Json → String) (idField idPrefix : String) (content : Json)
    (suppliedId suppliedHash : String) : Except String (String × String) :=
  let expectedHash := canonicalSha256 content
  let expectedId := idPrefix ++ ":" ++ expectedHash
  if suppliedHash ∉ ["", expectedHash] then .error "content_sha256 does not match canonical content"
  else if suppliedId ∉ ["", expectedId] then .error (idField ++ " does not match canonical content")
  else .ok (expectedId, expectedHash)

def dumpTexts (values : List String) : Json := .array (values.map .text)

def identified (canonicalSha256 : Json → String) (idField idPrefix : String) (content : List (String × Json)) : Json :=
  .dict (content ++ [(idField, .text (idPrefix ++ ":" ++ canonicalSha256 (.dict content))),
    ("content_sha256", .text (canonicalSha256 (.dict content)))])

theorem identify_of {canonicalSha256 : Json → String} {idField idPrefix suppliedId suppliedHash hash : String} {content : Json}
    (hcontent : canonicalSha256 content = hash) (hhash : suppliedHash ∈ ["", hash])
    (hid : suppliedId ∈ ["", idPrefix ++ ":" ++ hash]) :
    identify canonicalSha256 idField idPrefix content suppliedId suppliedHash = .ok (idPrefix ++ ":" ++ hash, hash) := by
  subst hcontent
  exact (if_neg (not_not.mpr hhash)).trans (if_neg (not_not.mpr hid))

theorem isContentId_append {kind digest : String} (h : isSha256 digest = true) :
    isContentId kind (kind ++ ":" ++ digest) = true := by
  have hsplit : (kind ++ ":" ++ digest).toList = (kind ++ ":").toList ++ digest.toList := String.toList_append
  have hdigest : isDigest digest.toList = true := h
  simp only [isContentId, hsplit, List.take_left', List.drop_left', beq_self_eq_true, hdigest, Bool.and_self]

def digestOf (digit : Char) : String := String.ofList (List.replicate 64 digit)

theorem isSha256_digestOf {digit : Char} (h : isHexDigit digit = true) : isSha256 (digestOf digit) = true := by
  simp [isSha256, digestOf, isDigest, h]

theorem isContentId_digestOf {kind mark : String} {digit : Char} (hmark : kind ++ ":" = mark)
    (h : isHexDigit digit = true) : isContentId kind (mark ++ digestOf digit) = true := by
  rw [← hmark]
  exact isContentId_append (isSha256_digestOf h)

end TrueAlpha.Contracts
