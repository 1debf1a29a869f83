import Mathlib.Data.Bool.AllAny
import TrueAlpha.Datahub.BackfillSteps

/-!
# Capture and backfill on one id

The plan claims a text id and its typed form, and the capture reads the same typed form.  But the backfill names an entity after
the text id and the capture after the typed form: one entity is minted exactly for ids without one.
-/

namespace TrueAlpha.Datahub

/-- `^issuer:lei:[0-9A-Za-z]{20}$`. -/
def planLei (raw : List Char) : Option (List Char) :=
  (dropMatching (· == ·) "issuer:lei:".toList raw).filter fun code => code.length == 20 && code.all Char.isAlphanum

/-- `^security:cusip:[0-9A-Za-z*@#]{9}$`. -/
def planCusip (raw : List Char) : Option (List Char) := (dropMatching (· == ·) "security:cusip:".toList raw).filter fun code =>
    code.length == 9 && code.all fun c => c.isAlphanum || c == '*' || c == '@' || c == '#'

/-- `^security:figi:[0-9A-Za-z]{12}$`. -/
def planFigi (raw : List Char) : Option (List Char) :=
  (dropMatching (· == ·) "security:figi:".toList raw).filter fun code => code.length == 12 && code.all Char.isAlphanum

/-- `[0-9a-z]`. -/
def isLowerAlnum (c : Char) : Bool := c.isDigit || c.isLower

/-- `^listing:[0-9a-z]{4}:[0-9a-z][0-9a-z.\-]*$`. -/
def planMicTicker (raw : List Char) : Option (List Char × List Char) :=
  ((dropMatching (· == ·) "listing:".toList raw).filter fun code =>
    (code.take 4).length == 4 && (code.take 4).all isLowerAlnum && (code.drop 4).head?.any (· == ':') &&
      (code.drop 5).head?.any isLowerAlnum && (code.drop 5).all fun c => isLowerAlnum c || c == '.' || c == '-').map
    fun code => (code.take 4, code.drop 5)

/-- The step `parsed` of the plan: the typed form of a text id, if it has one. -/
def planParsed (db : Database) (role raw : String) : Option (String × String) :=
  if role = "issuer" then
    match planLei raw.toList with
    | some code => some ("lei", db.upper (String.ofList code))
    | none => (cikOf raw.toList).map fun number => ("cik", zfill10 number)
  else if role = "instrument" then
    match planCusip raw.toList with
    | some code => some ("cusip", db.upper (String.ofList code))
    | none => (planFigi raw.toList).map fun code => ("figi", db.upper (String.ofList code))
  else if role = "listing" then
    (planMicTicker raw.toList).map fun (mic, ticker) =>
      ("mic-ticker", db.upper (String.ofList mic) ++ ":" ++ db.upper (String.ofList ticker))
  else none

structure IdEvidence where
  role : String
  raw : String
  validFrom : PgDate
  knownAt : PgTime
  source : String

namespace IdEvidence

variable (db : Database) (evidence : IdEvidence)

def component : String :=
  match planParsed db evidence.role evidence.raw with
  | some typed => evidence.role ++ "/" ++ typed.1 ++ "=" ++ typed.2
  | none => evidence.role ++ "/legacy=" ++ evidence.raw

def legacyClaim : AliasClaim :=
  ⟨evidence.role, evidence.component db, "legacy-id", evidence.raw, evidence.validFrom, evidence.knownAt,
    evidence.source, "asserted", 1, "planned"⟩

def typedClaim (typed : String × String) : AliasClaim :=
  ⟨evidence.role, evidence.component db, typed.1, typed.2, evidence.validFrom, evidence.knownAt, evidence.source,
    "parsed", 1, "planned"⟩

def plan : Plan where
  aliases := evidence.legacyClaim db ::
    ((planParsed db evidence.role evidence.raw).map (evidence.typedClaim db)).toList
  relations := []

/-- The form that the plan gives to the id: the typed one, if there is one and the registry takes it. -/
def form : String × String :=
  match planParsed db evidence.role evidence.raw with
  | some typed =>
    if ((evidence.typedClaim db typed).registered db.ontology).status = "planned" then typed
    else ("legacy-id", evidence.raw)
  | none => ("legacy-id", evidence.raw)

def backfilled (clock : PgTime) : Option ℕ :=
  (entityBackfill db clock (evidence.plan db) .empty).components.lookup (evidence.role, evidence.component db)

end IdEvidence

variable {c : Char}

theorem ascii_forall {P : Char → Prop} (h : ∀ n < 128, P (Char.ofNat n)) (hc : c.toNat < 128) : P c := by
  have := h c.toNat hc
  rwa [Char.ofNat_toNat] at this

theorem toNat_lt_of_isAlphanum (h : c.isAlphanum) : c.toNat < 128 := by
  unfold Char.isAlphanum Char.isAlpha Char.isUpper Char.isLower Char.isDigit at h
  simp only [Bool.or_eq_true, Bool.and_eq_true, decide_eq_true_eq, UInt32.le_iff_toNat_le, ge_iff_le] at h
  have : 'Z'.val.toNat = 90 := rfl
  have : 'z'.val.toNat = 122 := rfl
  have : '9'.val.toNat = 57 := rfl
  rw [Char.toNat]
  omega

def IsPlanChar (c : Char) : Prop := c.isAlphanum ∨ c ∈ ['*', '@', '#', '.', '-', ':']

instance (c : Char) : Decidable (IsPlanChar c) := inferInstanceAs (Decidable (_ ∨ _))

structure CharFacts (c : Char) : Prop where
  notSpace : isSpace c = false
  upper : upperLetter c = c.toUpper
  digit : c.toUpper.isDigit → c.isDigit
  letterG : c.toUpper = 'G' → sameLetter 'g' c

theorem IsPlanChar.facts (h : IsPlanChar c) : CharFacts c := by
  have hfacts : isSpace c = false ∧ upperLetter c = c.toUpper ∧ (c.toUpper.isDigit → c.isDigit) ∧
      (c.toUpper = 'G' → sameLetter 'g' c) := by
    have hascii : c.toNat < 128 := by
      obtain h | h := h
      · exact toNat_lt_of_isAlphanum h
      · have hcodes : ∀ c ∈ ['*', '@', '#', '.', '-', ':'], c.toNat < 128 := List.all_iff_forall_prop.mp (by decide)
        exact hcodes c h
    revert h
    exact ascii_forall (P := fun c => IsPlanChar c → isSpace c = false ∧ upperLetter c = c.toUpper ∧
      (c.toUpper.isDigit → c.isDigit) ∧ (c.toUpper = 'G' → sameLetter 'g' c)) (by decide +kernel) hascii
  exact ⟨hfacts.1, hfacts.2.1, hfacts.2.2.1, hfacts.2.2.2⟩

theorem isAlphanum_of_isDigit (h : c.isDigit) : c.isAlphanum := by
  unfold Char.isAlphanum
  rw [h, Bool.or_true]

theorem isAlphanum_of_isLowerAlnum (h : isLowerAlnum c) : c.isAlphanum := by
  simp only [isLowerAlnum, Bool.or_eq_true] at h
  unfold Char.isAlphanum Char.isAlpha
  simp only [Bool.or_eq_true]
  tauto

theorem strip_eq_self {text : String} (h : ∀ c ∈ text.toList, isSpace c = false) : strip text = text := by
  have hkeep : ∀ l : List Char, (∀ c ∈ l, isSpace c = false) → l.dropWhile isSpace = l := by
    intro l hl
    rw [List.dropWhile_eq_self_iff]
    intro hlength
    rw [hl _ (List.getElem_mem hlength)]
    decide
  rw [strip, hkeep _ h, hkeep _ (by simpa using h), List.reverse_reverse, String.ofList_toList]

theorem mem_dropWhile_of_not {p : Char → Bool} {c : Char} {l : List Char} (hc : c ∈ l) (hp : p c = false) :
    c ∈ l.dropWhile p := by
  induction l with
  | nil => cases hc
  | cons d l ih =>
    obtain rfl | hc := List.mem_cons.mp hc
    · simp [hp]
    · rw [List.dropWhile_cons]
      split
      · exact ih hc
      · exact List.mem_cons_of_mem _ hc

theorem mem_strip {text : String} (hc : c ∈ text.toList) (hspace : isSpace c = false) : c ∈ (strip text).toList := by
  rw [strip, String.toList_ofList, List.mem_reverse]
  exact mem_dropWhile_of_not (List.mem_reverse.mpr (mem_dropWhile_of_not hc hspace)) hspace

theorem mem_of_mem_intersperse {α : Type} {sep a : α} {l : List α} (h : a ∈ l.intersperse sep) : a = sep ∨ a ∈ l := by
  induction l with
  | nil => cases h
  | cons x l ih =>
    cases l with
    | nil => exact .inr h
    | cons y l =>
      rw [List.intersperse_cons_cons] at h
      obtain rfl | h := List.mem_cons.mp h
      · exact .inr List.mem_cons_self
      · obtain rfl | h := List.mem_cons.mp h
        · exact .inl rfl
        · exact (ih h).imp_right (List.mem_cons_of_mem _)

variable {value scheme : String} {code : List Char} {ontology : Ontology} {asOf : PgDate} {knownAt : PgTime}

theorem colon_not_mem_of_isUuid (h : isUuid value) : ':' ∉ value.toList := by
  intro hcolon
  rw [isUuid] at h
  have htext : ':' ∈ if value.toList.getLast? = some '\n' then value.toList.dropLast else value.toList := by
    split
    · next hnewline =>
      obtain ⟨front, hfront⟩ := List.getLast?_eq_some_iff.mp hnewline
      rw [hfront] at hcolon ⊢
      simpa using hcolon
    · exact hcolon
  generalize (if value.toList.getLast? = some '\n' then value.toList.dropLast else value.toList) = text at h htext
  obtain ⟨-, hhex⟩ := Bool.and_eq_true_iff.mp h
  have hjoin : ['-'].intercalate (text.splitOn '-') = text := List.intercalate_splitOn '-'
  rw [← hjoin, List.intercalate] at htext
  obtain ⟨group, hgroup, hmem⟩ := List.mem_flatten.mp htext
  obtain rfl | hgroup := mem_of_mem_intersperse hgroup
  · exact absurd (List.mem_singleton.mp hmem) (by decide)
  · exact absurd (List.all_eq_true.mp (List.all_eq_true.mp hhex group hgroup) _ hmem) (by decide)

/-! ## One grammar inside the other -/

theorem dropMatching_append {same : Char → Char → Bool} {prefix' : List Char} (h : prefix'.all fun p => same p p)
    (rest : List Char) :
    dropMatching same prefix' (prefix' ++ rest) = some rest := by
  induction prefix' with
  | nil => rfl
  | cons p ps ih =>
    rw [List.all_cons, Bool.and_eq_true] at h
    rw [List.cons_append, dropMatching, if_pos h.1]
    exact ih h.2

theorem eq_append_of_dropMatching {prefix' raw rest : List Char} (h : dropMatching (· == ·) prefix' raw = some rest) :
    raw = prefix' ++ rest := by
  induction prefix' generalizing raw with
  | nil => exact Option.some.inj h
  | cons p ps ih =>
    cases raw with
    | nil => cases h
    | cons c cs =>
      rw [dropMatching] at h
      split at h
      · next hsame =>
        rw [beq_iff_eq.mp hsame, ih h, List.cons_append]
      · cases h

theorem Database.upper_toList (db : Database) (h : ∀ c ∈ code, IsPlanChar c) :
    (db.upper (String.ofList code)).toList = code.map Char.toUpper := by
  rw [db.upper_ascii _ (by simpa [IsPlanChar] using h), String.toList_ofList, String.toList_ofList]

theorem Database.upper_eq_upperText (db : Database) (h : ∀ c ∈ code, IsPlanChar c) :
    db.upper (String.ofList code) = upperText code := by
  rw [← String.toList_inj, db.upper_toList h, upperText, String.toList_ofList]
  exact List.map_congr_left fun c hc => (h c hc).facts.upper.symm

theorem AliasClaim.registered_planned_iff {claim : AliasClaim} {scheme : AliasScheme}
    (hplanned : claim.status = "planned") (hscheme : ontology.aliasScheme claim.scheme = some scheme) :
    (claim.registered ontology).status = "planned" ↔
      claim.value = ontology.entityAliasNormalize claim.scheme claim.value ∧ scheme.valuePattern claim.value ∧
        ontology.entityKindIsA (some claim.kind) scheme.appliesToKind := by
  rw [AliasClaim.registered, if_pos hplanned, hscheme]
  dsimp only
  split
  · next hrefused =>
    refine iff_of_false (by decide) fun ⟨hvalue, hpattern, hkind⟩ => ?_
    simp [← hvalue, hpattern, hkind] at hrefused
  · next htaken =>
    refine iff_of_true hplanned ?_
    simp only [not_or, not_not, Bool.not_eq_true', Bool.not_eq_false] at htaken
    exact htaken

theorem all_isDigit_of_upper (h : ∀ c ∈ code, IsPlanChar c) (hdigits : (code.map Char.toUpper).all Char.isDigit) :
    code.all Char.isDigit := by
  rw [List.all_map] at hdigits
  exact List.all_eq_true.mpr fun c hc => (h c hc).facts.digit (List.all_eq_true.mp hdigits c hc)

variable {mic ticker : List Char}

section Grammar

variable {raw : List Char} (db : Database)

theorem planLei_eq_some (h : planLei raw = some code) :
    raw = "issuer:lei:".toList ++ code ∧ code.length = 20 ∧ ∀ c ∈ code, c.isAlphanum := by
  obtain ⟨hdrop, hcode⟩ := Option.filter_eq_some_iff.mp h
  simp only [Bool.and_eq_true, beq_iff_eq, List.all_eq_true] at hcode
  exact ⟨eq_append_of_dropMatching hdrop, hcode⟩

theorem leiOf_of_planLei (h : planLei raw = some code) (hpattern : leiPattern (db.upper (String.ofList code)).toList) :
    leiOf raw = some code := by
  obtain ⟨rfl, hlength, halnum⟩ := planLei_eq_some h
  have hplan : ∀ c ∈ code, IsPlanChar c := fun c hc => .inl (halnum c hc)
  rw [db.upper_toList hplan, leiPattern] at hpattern
  simp only [Bool.and_eq_true, ← List.map_drop] at hpattern
  rw [leiOf, dropMatching_append (by simp)]
  refine Option.filter_eq_some_iff.mpr ⟨rfl, ?_⟩
  simp only [Bool.and_eq_true, beq_iff_eq, List.all_eq_true]
  refine ⟨⟨hlength, fun c hc => halnum c (List.mem_of_mem_take hc)⟩, List.all_eq_true.mp ?_⟩
  exact all_isDigit_of_upper (fun c hc => hplan c (List.mem_of_mem_drop hc)) hpattern.2

theorem cikOf_eq_some {number : List Char} (h : cikOf raw = some number) :
    raw = "issuer:cik:".toList ++ number ∧ ∀ c ∈ number, c.isAlphanum := by
  obtain ⟨hdrop, hnumber⟩ := Option.filter_eq_some_iff.mp h
  simp only [isShortNumber, Bool.and_eq_true, List.all_eq_true] at hnumber
  exact ⟨eq_append_of_dropMatching hdrop, fun c hc => isAlphanum_of_isDigit (hnumber.2 c hc)⟩

theorem planCusip_eq_some (h : planCusip raw = some code) : raw = "security:cusip:".toList ++ code ∧ code.length = 9 ∧
      ∀ c ∈ code, c.isAlphanum || c == '*' || c == '@' || c == '#' := by
  obtain ⟨hdrop, hcode⟩ := Option.filter_eq_some_iff.mp h
  rw [Bool.and_eq_true, beq_iff_eq, List.all_eq_true] at hcode
  exact ⟨eq_append_of_dropMatching hdrop, hcode⟩

theorem isPlanChar_of_cusip (h : c.isAlphanum || c == '*' || c == '@' || c == '#') : IsPlanChar c := by
  simp only [Bool.or_eq_true, beq_iff_eq] at h
  rw [IsPlanChar]
  obtain ((h | rfl) | rfl) | rfl := h
  · exact .inl h
  all_goals exact .inr (by decide)

theorem cusipOf_of_planCusip (h : planCusip raw = some code)
    (hpattern : cusipPattern (db.upper (String.ofList code)).toList) : cusipOf raw = some code := by
  obtain ⟨rfl, hlength, hcode⟩ := planCusip_eq_some h
  have hplan : ∀ c ∈ code, IsPlanChar c := fun c hc => isPlanChar_of_cusip (hcode c hc)
  rw [db.upper_toList hplan, cusipPattern] at hpattern
  simp only [Bool.and_eq_true, ← List.map_drop] at hpattern
  rw [cusipOf, dropMatching_append (by simp)]
  refine Option.filter_eq_some_iff.mpr ⟨rfl, ?_⟩
  rw [Bool.and_eq_true, Bool.and_eq_true, beq_iff_eq]
  refine ⟨⟨hlength, List.all_eq_true.mpr fun c hc => hcode c (List.mem_of_mem_take hc)⟩, ?_⟩
  exact all_isDigit_of_upper (fun c hc => hplan c (List.mem_of_mem_drop hc)) hpattern.2

theorem planFigi_eq_some (h : planFigi raw = some code) :
    raw = "security:figi:".toList ++ code ∧ code.length = 12 ∧ ∀ c ∈ code, c.isAlphanum := by
  obtain ⟨hdrop, hcode⟩ := Option.filter_eq_some_iff.mp h
  simp only [Bool.and_eq_true, beq_iff_eq, List.all_eq_true] at hcode
  exact ⟨eq_append_of_dropMatching hdrop, hcode⟩

theorem figiOf_of_planFigi (h : planFigi raw = some code)
    (hpattern : figiPattern (db.upper (String.ofList code)).toList) : figiOf raw = some code := by
  obtain ⟨rfl, hlength, halnum⟩ := planFigi_eq_some h
  have hplan : ∀ c ∈ code, IsPlanChar c := fun c hc => .inl (halnum c hc)
  rw [db.upper_toList hplan, figiPattern] at hpattern
  simp only [Bool.and_eq_true, ← List.map_drop, ← List.map_take, List.all_map, List.all_eq_true, Function.comp_apply] at hpattern
  obtain ⟨⟨⟨⟨_, hhead⟩, hg⟩, hmiddle⟩, hlast⟩ := hpattern
  rw [figiOf, dropMatching_append (by decide)]
  refine Option.filter_eq_some_iff.mpr ⟨rfl, ?_⟩
  simp only [Bool.and_eq_true, beq_iff_eq, List.all_eq_true]
  refine ⟨⟨⟨⟨hlength, fun c hc => ?_⟩, fun c hc => ?_⟩, fun c hc => ?_⟩, fun c hc => ?_⟩
  · simp [isAnyConsonant, hhead c hc]
  · exact (hplan c (List.mem_of_mem_drop (List.mem_of_mem_take hc))).facts.letterG (beq_iff_eq.mp (hg c hc))
  · have hc' := hmiddle c hc
    rw [Bool.or_eq_true] at hc' ⊢
    refine hc'.imp (fun h => by simp [isAnyConsonant, h]) fun h => ?_
    exact (hplan c (List.mem_of_mem_drop (List.mem_of_mem_take hc))).facts.digit h
  · exact (hplan c (List.mem_of_mem_drop hc)).facts.digit (hlast c hc)

theorem isAnyAlnum_of_isLowerAlnum (h : isLowerAlnum c) : isAnyAlnum c := by
  simp [isAnyAlnum, isAlphanum_of_isLowerAlnum h]

theorem planMicTicker_eq_some (h : planMicTicker raw = some (mic, ticker)) :
    raw = "listing:".toList ++ (mic ++ ':' :: ticker) ∧ mic.length = 4 ∧ (∀ c ∈ mic, isLowerAlnum c) ∧
      ticker.head?.any isLowerAlnum ∧ ∀ c ∈ ticker, isLowerAlnum c || c == '.' || c == '-' := by
  obtain ⟨code, hcode, heq⟩ := Option.map_eq_some_iff.mp h
  obtain ⟨rfl, rfl⟩ := Prod.mk.inj heq
  obtain ⟨hdrop, hcode⟩ := Option.filter_eq_some_iff.mp hcode
  simp only [Bool.and_eq_true, beq_iff_eq, List.all_eq_true] at hcode
  obtain ⟨⟨⟨⟨hlength, hmic⟩, hcolon⟩, hhead⟩, hticker⟩ := hcode
  refine ⟨?_, hlength, hmic, hhead, hticker⟩
  have hrest : code.drop 4 = ':' :: code.drop 5 := by
    rcases hdrop' : code.drop 4 with _ | ⟨c, rest⟩
    · rw [hdrop'] at hcolon
      cases hcolon
    · rw [hdrop'] at hcolon
      rw [show c = ':' from beq_iff_eq.mp hcolon, show code.drop 5 = (code.drop 4).drop 1 by rw [List.drop_drop], hdrop']
      rfl
  rw [← hrest, List.take_append_drop]
  exact eq_append_of_dropMatching hdrop

theorem micTickerOf_of_planMicTicker (h : planMicTicker raw = some (mic, ticker)) : micTickerOf raw = some (mic, ticker) := by
  obtain ⟨rfl, hlength, hmic, hhead, hticker⟩ := planMicTicker_eq_some h
  have htake : (mic ++ ':' :: ticker).take 4 = mic := by rw [← hlength, List.take_left]
  have hdrop : (mic ++ ':' :: ticker).drop 4 = ':' :: ticker := by rw [← hlength, List.drop_left]
  have hdrop' : (mic ++ ':' :: ticker).drop 5 = ticker := by
    rw [show (mic ++ ':' :: ticker).drop 5 = ((mic ++ ':' :: ticker).drop 4).drop 1 by rw [List.drop_drop], hdrop]
    rfl
  rw [micTickerOf, dropMatching_append (by decide)]
  refine Option.map_eq_some_iff.mpr ⟨mic ++ ':' :: ticker, Option.filter_eq_some_iff.mpr ⟨rfl, ?_⟩, by rw [htake, hdrop']⟩
  simp only [htake, hdrop, hdrop', Bool.and_eq_true, beq_iff_eq, List.all_eq_true, Bool.or_eq_true]
  refine ⟨⟨⟨⟨hlength, fun c hc => isAnyAlnum_of_isLowerAlnum (hmic c hc)⟩, by simp⟩, ?_⟩, fun c hc => ?_⟩
  · obtain ⟨first, hfirst, hlower⟩ := (Option.any_eq_true ..).mp hhead
    exact (Option.any_eq_true ..).mpr ⟨first, hfirst, isAnyAlnum_of_isLowerAlnum hlower⟩
  · have hc' := hticker c hc
    simp only [Bool.or_eq_true, beq_iff_eq] at hc'
    exact hc'.imp_left fun h => h.imp_left isAnyAlnum_of_isLowerAlnum

end Grammar

variable {db : Database} {role raw : String} {typed : String × String}

theorem planParsed_cases (h : planParsed db role raw = some typed) :
    (role = "issuer" ∧ ∃ code, planLei raw.toList = some code ∧ typed = ("lei", db.upper (String.ofList code))) ∨
    (role = "issuer" ∧ ∃ number, cikOf raw.toList = some number ∧ typed = ("cik", zfill10 number)) ∨
    (role = "instrument" ∧ ∃ code, planCusip raw.toList = some code ∧ typed = ("cusip", db.upper (String.ofList code))) ∨
    (role = "instrument" ∧ ∃ code, planFigi raw.toList = some code ∧ typed = ("figi", db.upper (String.ofList code))) ∨
    (role = "listing" ∧ ∃ mic ticker, planMicTicker raw.toList = some (mic, ticker) ∧
      typed = ("mic-ticker", db.upper (String.ofList mic) ++ ":" ++ db.upper (String.ofList ticker))) := by
  rw [planParsed] at h
  split at h
  · next hrole =>
    split at h
    · next code hcode => exact .inl ⟨hrole, code, hcode, (Option.some.inj h).symm⟩
    · obtain ⟨number, hnumber, heq⟩ := Option.map_eq_some_iff.mp h
      exact .inr (.inl ⟨hrole, number, hnumber, heq.symm⟩)
  · split at h
    · next hrole =>
      split at h
      · next code hcode => exact .inr (.inr (.inl ⟨hrole, code, hcode, (Option.some.inj h).symm⟩))
      · obtain ⟨code, hcode, heq⟩ := Option.map_eq_some_iff.mp h
        exact .inr (.inr (.inr (.inl ⟨hrole, code, hcode, heq.symm⟩)))
    · split at h
      · next hrole =>
        obtain ⟨⟨mic, ticker⟩, hcode, heq⟩ := Option.map_eq_some_iff.mp h
        exact .inr (.inr (.inr (.inr ⟨hrole, mic, ticker, hcode, heq.symm⟩)))
      · cases h

theorem isPlanChar_append {l l' : List Char} (h : ∀ c ∈ l, IsPlanChar c) (h' : ∀ c ∈ l', IsPlanChar c) :
    ∀ c ∈ l ++ l', IsPlanChar c :=
  fun c hc => (List.mem_append.mp hc).elim (h c) (h' c)

theorem isPlanChar_of_ticker (h : isLowerAlnum c || c == '.' || c == '-') : IsPlanChar c := by
  simp only [Bool.or_eq_true, beq_iff_eq] at h
  rw [IsPlanChar]
  obtain (h | rfl) | rfl := h
  · exact .inl (isAlphanum_of_isLowerAlnum h)
  all_goals exact .inr (by decide)

theorem isPlanChar_of_planParsed (h : planParsed db role raw = some typed) : ∀ c ∈ raw.toList, IsPlanChar c := by
  obtain ⟨-, code, hcode, -⟩ | ⟨-, number, hnumber, -⟩ | ⟨-, code, hcode, -⟩ | ⟨-, code, hcode, -⟩ |
    ⟨-, mic, ticker, hcode, -⟩ := planParsed_cases h
  · obtain ⟨hraw, -, halnum⟩ := planLei_eq_some hcode
    rw [hraw]
    exact isPlanChar_append (List.all_iff_forall_prop.mp (by decide)) fun c hc => .inl (halnum c hc)
  · obtain ⟨hraw, halnum⟩ := cikOf_eq_some hnumber
    rw [hraw]
    exact isPlanChar_append (List.all_iff_forall_prop.mp (by decide)) fun c hc => .inl (halnum c hc)
  · obtain ⟨hraw, -, hchars⟩ := planCusip_eq_some hcode
    rw [hraw]
    exact isPlanChar_append (List.all_iff_forall_prop.mp (by decide)) fun c hc => isPlanChar_of_cusip (hchars c hc)
  · obtain ⟨hraw, -, halnum⟩ := planFigi_eq_some hcode
    rw [hraw]
    exact isPlanChar_append (List.all_iff_forall_prop.mp (by decide)) fun c hc => .inl (halnum c hc)
  · obtain ⟨hraw, -, hmic, -, hticker⟩ := planMicTicker_eq_some hcode
    rw [hraw]
    refine isPlanChar_append (List.all_iff_forall_prop.mp (by decide)) (isPlanChar_append (fun c hc => .inl (isAlphanum_of_isLowerAlnum (hmic c hc))) ?_)
    rintro c (_ | ⟨_, hc⟩)
    · exact .inr (by decide)
    · exact isPlanChar_of_ticker (hticker c hc)

theorem strip_of_planParsed (h : planParsed db role raw = some typed) : strip raw = raw :=
  strip_eq_self fun c hc => (isPlanChar_of_planParsed h c hc).facts.notSpace

theorem parseAlias_of_planned {evidence : IdEvidence} (h : planParsed db evidence.role evidence.raw = some typed)
    (hplanned : ((evidence.typedClaim db typed).registered db.ontology).status = "planned") :
    parseAlias evidence.raw evidence.role = typed := by
  rw [parseAlias, strip_of_planParsed h]
  obtain ⟨hrole, code, hcode, rfl⟩ | ⟨hrole, number, hnumber, rfl⟩ | ⟨hrole, code, hcode, rfl⟩ |
    ⟨hrole, code, hcode, rfl⟩ | ⟨hrole, mic, ticker, hcode, rfl⟩ := planParsed_cases h
  · obtain ⟨-, hpattern, -⟩ := (AliasClaim.registered_planned_iff rfl rfl).mp hplanned
    obtain ⟨-, -, halnum⟩ := planLei_eq_some hcode
    rw [hrole, if_pos rfl, leiOf_of_planLei db hcode hpattern]
    dsimp only
    rw [db.upper_eq_upperText fun c hc => .inl (halnum c hc)]
  · obtain ⟨hraw, -⟩ := cikOf_eq_some hnumber
    have hlei : leiOf evidence.raw.toList = none := by
      rw [hraw]
      rfl
    rw [hrole, if_pos rfl, hlei, hnumber]
  · obtain ⟨-, hpattern, -⟩ := (AliasClaim.registered_planned_iff rfl rfl).mp hplanned
    obtain ⟨-, -, hchars⟩ := planCusip_eq_some hcode
    rw [hrole, if_neg (by decide), if_pos rfl, cusipOf_of_planCusip db hcode hpattern]
    dsimp only
    rw [db.upper_eq_upperText fun c hc => isPlanChar_of_cusip (hchars c hc)]
  · obtain ⟨-, hpattern, -⟩ := (AliasClaim.registered_planned_iff rfl rfl).mp hplanned
    obtain ⟨hraw, -, halnum⟩ := planFigi_eq_some hcode
    have hcusip : cusipOf evidence.raw.toList = none := by
      rw [hraw]
      rfl
    rw [hrole, if_neg (by decide), if_pos rfl, hcusip, figiOf_of_planFigi db hcode hpattern]
    dsimp only
    rw [db.upper_eq_upperText fun c hc => .inl (halnum c hc)]
  · obtain ⟨-, -, hmic, -, hticker⟩ := planMicTicker_eq_some hcode
    rw [hrole, if_neg (by decide), if_neg (by decide), if_pos rfl, micTickerOf_of_planMicTicker hcode]
    dsimp only
    rw [db.upper_eq_upperText fun c hc => .inl (isAlphanum_of_isLowerAlnum (hmic c hc)),
      db.upper_eq_upperText fun c hc => isPlanChar_of_ticker (hticker c hc)]

theorem scheme_of_planParsed (h : planParsed db role raw = some typed) : typed.1 ≠ "legacy-id" := by
  obtain ⟨-, _, -, rfl⟩ | ⟨-, _, -, rfl⟩ | ⟨-, _, -, rfl⟩ | ⟨-, _, -, rfl⟩ | ⟨-, _, _, -, rfl⟩ := planParsed_cases h <;>
    simp

/-! ## The two mints -/

theorem entityMint_empty {kind : String} {minted : ℕ × EntityStore}
    (h : EntityStore.empty.entityMint ontology kind scheme value = .ok minted) :
    minted.1 = ontology.entityUuid kind (entityBirthName scheme (ontology.entityAliasNormalize scheme value) 1) := by
  obtain ⟨generation, hgeneration, hminted, -, -⟩ := EntityStore.entityMint_eq_ok h
  have hfirst : EntityStore.empty.mintGeneration ontology kind scheme (ontology.entityAliasNormalize scheme value) =
      some 1 := by simp [EntityStore.mintGeneration, EntityStore.empty]
  rw [hfirst] at hgeneration
  cases hgeneration
  exact hminted

variable {clock : PgTime}

namespace IdEvidence

variable {evidence : IdEvidence}

theorem registered_fields (ontology : Ontology) (claim : AliasClaim) :
    (claim.registered ontology).kind = claim.kind ∧ (claim.registered ontology).component = claim.component ∧
      (claim.registered ontology).scheme = claim.scheme ∧ (claim.registered ontology).value = claim.value := by
  rw [AliasClaim.registered]
  split
  · split <;> exact ⟨rfl, rfl, rfl, rfl⟩
  · exact ⟨rfl, rfl, rfl, rfl⟩

theorem mem_planned {claim : AliasClaim} (h : claim ∈ (evidence.plan db).planned db.ontology) :
    claim.kind = evidence.role ∧ claim.component = evidence.component db ∧
      (claim.scheme = "legacy-id" → claim.value = evidence.raw) := by
  obtain ⟨source, hsource, rfl⟩ := List.mem_map.mp (List.mem_filter.mp h).1
  obtain ⟨hkind, hcomponent, hscheme, hvalue⟩ := registered_fields db.ontology source
  rw [hkind, hcomponent, hscheme, hvalue]
  obtain rfl | hsource := List.mem_cons.mp hsource
  · exact ⟨rfl, rfl, fun _ => rfl⟩
  · obtain ⟨typed, htyped, rfl⟩ := Option.map_eq_some_iff.mp (Option.mem_toList.mp hsource)
    exact ⟨rfl, rfl, fun hlegacy => absurd hlegacy (scheme_of_planParsed htyped)⟩

theorem componentsOf_planned (h : (evidence.plan db).planned db.ontology ≠ []) :
    componentsOf db ((evidence.plan db).planned db.ontology) = [(evidence.role, evidence.component db)] := by
  have hall : ∀ component ∈ componentsOf db ((evidence.plan db).planned db.ontology),
      component = (evidence.role, evidence.component db) := by
    intro component hcomponent
    obtain ⟨claim, hclaim, hkind, hname⟩ := mem_componentsOf.mp hcomponent
    obtain ⟨hkind', hname', -⟩ := mem_planned hclaim
    exact Prod.ext (hkind.symm.trans hkind') (hname.symm.trans hname')
  obtain ⟨claim, hclaim⟩ := List.exists_mem_of_ne_nil _ h
  have hmem : (claim.kind, claim.component) ∈ componentsOf db ((evidence.plan db).planned db.ontology) :=
    mem_componentsOf.mpr ⟨claim, hclaim, rfl, rfl⟩
  have hnodup := nodup_componentsOf db ((evidence.plan db).planned db.ontology)
  match componentsOf db ((evidence.plan db).planned db.ontology), hall, hmem, hnodup with
  | [component], hall, _, _ => rw [hall component (by simp)]
  | first :: second :: _, hall, _, hnodup =>
    rw [hall first (by simp), hall second (by simp)] at hnodup
    simp at hnodup

theorem claimsOf_planned : claimsOf ((evidence.plan db).planned db.ontology) (evidence.role, evidence.component db) =
    (evidence.plan db).planned db.ontology :=
  List.filter_eq_self.mpr fun claim hclaim => by
    obtain ⟨hkind, hname, -⟩ := mem_planned hclaim
    simp [hkind, hname]

theorem backfilled_eq {id : ℕ} (hlegacy : ((evidence.legacyClaim db).registered db.ontology).status = "planned")
    (h : evidence.backfilled db clock = some id) :
    id = db.entityUuid evidence.role
      (entityBirthName "legacy-id" (db.ontology.entityAliasNormalize "legacy-id" evidence.raw) 1) := by
  have hmem : (evidence.legacyClaim db).registered db.ontology ∈ (evidence.plan db).planned db.ontology :=
    List.mem_filter.mpr ⟨List.mem_map_of_mem List.mem_cons_self, decide_eq_true hlegacy⟩
  have hrun : entityBackfill db clock (evidence.plan db) .empty =
      runComponent db clock ((evidence.plan db).planned db.ontology) ⟨.empty, EntityStore.empty.survivorMap, [], []⟩
        (evidence.role, evidence.component db) := by
    have hrelations : (evidence.plan db).plannedRelations db = [] := rfl
    simp only [entityBackfill, hrelations, runComponents, componentsOf_planned (List.ne_nil_of_mem hmem),
      List.foldl_cons, List.foldl_nil]
  rw [backfilled, hrun, runComponent, claimsOf_planned] at h
  split at h
  · next written hwritten =>
    obtain ⟨hnone, -⟩ | ⟨birth, claimed, last, hbirth, hclaimed, hlast, rfl⟩ := writeComponent_eq_ok hwritten
    · rw [birthClaim_eq_none_iff.mp hnone] at hmem
      cases hmem
    · obtain ⟨hclaim, -⟩ := birthClaim_eq_some hbirth
      have hscheme := birthClaim_legacy hbirth hmem (registered_fields ..).2.2.1
      have hvalue := (mem_planned hclaim).2.2 hscheme
      obtain ⟨-, minted, hminted, rfl⟩ | ⟨hexisting, -⟩ := claimEntity_eq_ok hclaimed
      · have hcomponents := (writeClaims_frame hlast).components
        rw [show last.components = [] from hcomponents, List.nil_append, List.lookup_cons_self] at h
        rw [← Option.some.inj h, entityMint_empty hminted, hscheme, hvalue]
        rfl
      · refine absurd ?_ hexisting
        simp [existingEntities, EntityStore.empty]
  · cases h

end IdEvidence

theorem insertOrSkip_alias {store store' : EntityStore} {row : AliasRow}
    (h : store.insertOrSkip ontology (.aliasClaim row clock) = .ok store') :
    row.value = ontology.entityAliasNormalize row.scheme row.value ∧
      ∃ scheme, ontology.aliasScheme row.scheme = some scheme ∧ scheme.valuePattern row.value := by
  have hrefused : ∀ error ≠ StoreError.duplicateKey,
      store.validateEntityAlias ontology (store.identified row) ≠ .error error := by
    intro error hne hvalidate
    have hinsert : store.insert ontology (.aliasClaim row clock) = .error error := by
      rw [EntityStore.insert, EntityStore.admits, hvalidate]
      rfl
    rw [EntityStore.insertOrSkip, hinsert] at h
    split at h
    · next heq => exact hne (Except.error.inj heq)
    · cases h
  have hcanonical : row.value = ontology.entityAliasNormalize row.scheme row.value := by
    by_contra hne
    refine hrefused (.notCanonical row.scheme row.value (ontology.entityAliasNormalize row.scheme row.value)) (by simp) ?_
    rw [EntityStore.validateEntityAlias]
    exact if_pos hne
  refine ⟨hcanonical, ?_⟩
  rcases hscheme : ontology.aliasScheme row.scheme with _ | scheme
  · refine absurd ?_ (hrefused (.schemeKind row.scheme (store.kindOf row.entityId)) (by simp))
    simp [EntityStore.validateEntityAlias, EntityStore.identified, ← hcanonical, hscheme]
  · refine ⟨scheme, rfl, ?_⟩
    by_contra hpattern
    refine hrefused (.patternMismatch row.scheme row.value) (by simp) ?_
    simp [EntityStore.validateEntityAlias, EntityStore.identified, ← hcanonical, hscheme, hpattern]

theorem not_names_empty (e : ℕ) : ¬ EntityStore.empty.Names ontology scheme value asOf knownAt e := by
  rintro ⟨claim, hclaim, -⟩
  exact List.not_mem_nil hclaim

theorem lookupMintedEntity_empty (choice : RowChoice) (ontology : Ontology) (scheme value : String) (knownAt : PgTime) :
    EntityStore.empty.lookupMintedEntity choice ontology scheme value knownAt = none := by
  rw [EntityStore.lookupMintedEntity, Option.map_eq_none_iff]
  rcases hrow : choice.entity (EntityStore.empty.bornFrom ontology scheme value) with _ | row
  · rfl
  · exact absurd (List.mem_filter.mp (choice.entity_mem _ _ hrow)).1 List.not_mem_nil

theorem lookupEntity_empty (choice : RowChoice) (db : Database) {rawId : String} (huuid : isUuid (strip rawId) = false) :
    EntityStore.empty.lookupEntity choice db.ontology rawId role asOf knownAt = .ok none := by
  obtain ⟨hambiguous, -⟩ | ⟨e, hanswer, -⟩ | ⟨-, hlookup⟩ := EntityStore.lookupEntity_cases choice .empty asOf knownAt
    db role huuid
  · obtain ⟨e, _, hnames, -⟩ | ⟨-, e, _, hnames, -⟩ := hambiguous <;> exact absurd hnames (not_names_empty e)
  · obtain ⟨hnames, -⟩ | ⟨-, hnames, -⟩ := hanswer <;> exact absurd hnames (not_names_empty e)
  · rw [hlookup, EntityStore.lookupBirth, lookupMintedEntity_empty, lookupMintedEntity_empty, ite_self]

theorem resolveEntity_empty {choice : RowChoice} {id : ℕ} {store : EntityStore} (huuid : isUuid (strip raw) = false)
    (h : EntityStore.empty.resolveEntity choice db.ontology raw role asOf knownAt clock = .ok (id, store)) :
    id = db.entityUuid role (entityBirthName (parseAlias (strip raw) role).1
      (db.ontology.entityAliasNormalize (parseAlias (strip raw) role).1 (parseAlias (strip raw) role).2) 1) ∧
    strip raw = db.ontology.entityAliasNormalize "legacy-id" (strip raw) ∧ legacyIdPattern db.isSpace (strip raw).toList := by
  obtain ⟨found, hfound, h⟩ := bind_eq_ok_iff.mp h
  rw [lookupEntity_empty choice db huuid] at hfound
  cases hfound
  obtain ⟨minted, hminted, h⟩ := bind_eq_ok_iff.mp h
  obtain ⟨born, hborn, h⟩ := bind_eq_ok_iff.mp h
  have hid : minted.1 = db.ontology.entityUuid role _ := entityMint_empty hminted
  have hraw : (parseAlias (strip raw) role).1 = "legacy-id" → (parseAlias (strip raw) role).2 = strip raw :=
    EntityStore.parseAlias_legacy
  generalize parseAlias (strip raw) role = typed at h hborn hid hraw ⊢
  have hlegacyScheme : db.ontology.aliasScheme "legacy-id" =
      some ⟨"entity", true, false, fun value => legacyIdPattern db.isSpace value.toList⟩ := rfl
  split at h
  · obtain ⟨last, hlast, h⟩ := bind_eq_ok_iff.mp h
    cases h
    obtain ⟨hcanonical, scheme, hscheme, hpattern⟩ := insertOrSkip_alias hlast
    rw [show scheme = _ from Option.some.inj (hscheme.symm.trans hlegacyScheme)] at hpattern
    dsimp only at hcanonical hpattern
    exact ⟨hid, hcanonical, hpattern⟩
  · next hlegacy =>
    cases h
    have hlegacy := not_not.mp hlegacy
    obtain ⟨hcanonical, scheme, hscheme, hpattern⟩ := insertOrSkip_alias hborn
    dsimp only at hcanonical hscheme hpattern
    rw [hlegacy] at hcanonical hscheme
    rw [hraw hlegacy] at hcanonical hpattern
    rw [show scheme = _ from Option.some.inj (hscheme.symm.trans hlegacyScheme)] at hpattern
    dsimp only at hcanonical hpattern
    exact ⟨hid, hcanonical, hpattern⟩

theorem parseAlias_strip (raw role : String) : parseAlias (strip raw) role = parseAlias raw role := by
  simp only [parseAlias, strip_strip]

theorem scheme_of_birthName {value' : String}
    (hscheme : scheme = "legacy-id" ∨ scheme ∈ ["lei", "cik", "cusip", "figi", "mic-ticker"])
    (h : entityBirthName scheme value 1 = entityBirthName "legacy-id" value' 1) : scheme = "legacy-id" := by
  refine hscheme.resolve_right fun hmem => ?_
  have htext := congrArg String.toList h
  simp only [List.mem_cons, List.not_mem_nil, or_false] at hmem
  obtain rfl | rfl | rfl | rfl | rfl := hmem <;> simp [entityBirthName] at htext

namespace IdEvidence

variable {evidence : IdEvidence} {clock : PgTime} {id : ℕ}

theorem planned_of_backfilled (h : evidence.backfilled db clock = some id) :
    ((evidence.legacyClaim db).registered db.ontology).status = "planned" ∨
      ∃ typed, planParsed db evidence.role evidence.raw = some typed := by
  by_contra hnone
  rw [not_or, not_exists] at hnone
  have hclaims : (evidence.plan db).planned db.ontology = [] := by
    refine List.filter_eq_nil_iff.mpr fun claim hclaim => ?_
    obtain ⟨source, hsource, rfl⟩ := List.mem_map.mp hclaim
    obtain rfl | hsource := List.mem_cons.mp hsource
    · simpa using hnone.1
    · obtain ⟨typed, htyped, -⟩ := Option.map_eq_some_iff.mp (Option.mem_toList.mp hsource)
      exact absurd htyped (hnone.2 typed)
  have hrelations : (evidence.plan db).plannedRelations db = [] := rfl
  simp [backfilled, entityBackfill, hrelations, runComponents, hclaims, componentsOf, distinct, sortedBy] at h

theorem colon_mem (h : evidence.backfilled db clock = some id) : ':' ∈ evidence.raw.toList := by
  obtain hlegacy | ⟨typed, htyped⟩ := planned_of_backfilled h
  · obtain ⟨-, hpattern, -⟩ := (AliasClaim.registered_planned_iff rfl rfl).mp hlegacy
    by_contra hcolon
    have hrest : evidence.raw.toList.dropWhile (· != ':') = [] := by
      refine List.dropWhile_eq_nil_iff.mpr fun c hc => ?_
      rw [bne_iff_ne]
      rintro rfl
      exact hcolon hc
    simp [legacyClaim, legacyIdPattern, hrest] at hpattern
  · obtain ⟨-, _, hform, -⟩ | ⟨-, _, hform, -⟩ | ⟨-, _, hform, -⟩ | ⟨-, _, hform, -⟩ | ⟨-, _, _, hform, -⟩ :=
      planParsed_cases htyped
    · rw [(planLei_eq_some hform).1]
      simp
    · rw [(cikOf_eq_some hform).1]
      simp
    · rw [(planCusip_eq_some hform).1]
      simp
    · rw [(planFigi_eq_some hform).1]
      simp
    · rw [(planMicTicker_eq_some hform).1]
      simp

theorem legacy_planned (hcanonical : strip evidence.raw = db.ontology.entityAliasNormalize "legacy-id" (strip evidence.raw))
    (hpattern : legacyIdPattern db.isSpace (strip evidence.raw).toList)
    (h : evidence.backfilled db clock = some id) :
    ((evidence.legacyClaim db).registered db.ontology).status = "planned" := by
  obtain hlegacy | ⟨typed, htyped⟩ := planned_of_backfilled h
  · exact hlegacy
  · rw [strip_of_planParsed htyped] at hcanonical hpattern
    refine (AliasClaim.registered_planned_iff rfl rfl).mpr ⟨hcanonical, hpattern, ?_⟩
    obtain ⟨hrole, -⟩ | ⟨hrole, -⟩ | ⟨hrole, -⟩ | ⟨hrole, -⟩ | ⟨hrole, -⟩ := planParsed_cases htyped <;>
      rw [legacyClaim, hrole] <;> rfl

theorem form_of_untyped (h : (parseAlias evidence.raw evidence.role).1 = "legacy-id") :
    evidence.form db = ("legacy-id", evidence.raw) := by
  rw [form]
  split
  · next typed htyped =>
    refine if_neg fun hplanned => ?_
    rw [parseAlias_of_planned htyped hplanned] at h
    exact scheme_of_planParsed htyped h
  · rfl

theorem form_legacy (h : (evidence.form db).1 = "legacy-id") : (evidence.form db).2 = evidence.raw := by
  rw [form] at h ⊢
  split at h
  · next typed htyped =>
    split at h
    · exact absurd h (scheme_of_planParsed htyped)
    · next hrefused => simp [hrefused]
  · rfl

end IdEvidence

/-- The capture and the backfill mint one entity exactly where the id has no typed form and no white space around it. -/
theorem same_mint_iff_untyped (choice : RowChoice) (db : Database)
    (hinjective : ∀ kind, Function.Injective (db.entityUuid kind)) (evidence : IdEvidence) (asOf : PgDate)
    (knownAt clock clock' : PgTime) (id id' : ℕ) (store : EntityStore)
    (hcapture : EntityStore.empty.resolveEntity choice db.ontology evidence.raw evidence.role asOf knownAt clock =
      .ok (id, store))
    (hbackfill : evidence.backfilled db clock' = some id') :
    (parseAlias evidence.raw evidence.role = evidence.form db ∧ id = id') ↔
      strip evidence.raw = evidence.raw ∧ (parseAlias evidence.raw evidence.role).1 = "legacy-id" := by
  have huuid : isUuid (strip evidence.raw) = false := by
    by_contra huuid
    rw [Bool.not_eq_false] at huuid
    exact colon_not_mem_of_isUuid huuid (mem_strip (IdEvidence.colon_mem hbackfill) (by decide))
  obtain ⟨hid, hcanonical, hpattern⟩ := resolveEntity_empty huuid hcapture
  have hlegacy := IdEvidence.legacy_planned hcanonical hpattern hbackfill
  have hid' := IdEvidence.backfilled_eq hlegacy hbackfill
  rw [parseAlias_strip] at hid
  have hcases : parseAlias evidence.raw evidence.role = ("legacy-id", strip evidence.raw) ∨ _ := parseAlias_cases _ _
  constructor
  · rintro ⟨hform, heq⟩
    have hscheme : (parseAlias evidence.raw evidence.role).1 = "legacy-id" :=
      scheme_of_birthName (hcases.imp_left fun h => by rw [h]) (hinjective _ (by rw [← hid, ← hid', heq]))
    refine ⟨?_, hscheme⟩
    have hvalue : (evidence.form db).2 = evidence.raw := IdEvidence.form_legacy (by rw [← hform, hscheme])
    obtain hparse | hparse := hcases
    · rw [← hform, hparse] at hvalue
      exact hvalue
    · rw [hscheme] at hparse
      exact absurd hparse (by decide)
  · rintro ⟨hstrip, hscheme⟩
    obtain hparse | hparse := hcases
    · rw [hstrip] at hparse
      rw [IdEvidence.form_of_untyped hscheme, hid, hid', hparse]
      exact ⟨rfl, rfl⟩
    · rw [hscheme] at hparse
      exact absurd hparse (by decide)

/-! ### An issuer with a CIK, and one with an id of its own -/

def issuerEvidence (raw : String) : IdEvidence := ⟨"issuer", raw, newYear, midnight 0, "capture-observation"⟩

/-- An issuer with a CIK is minted from it by the capture, from the text id by the backfill. -/
theorem cik_issuer_is_minted_twice : ¬ ∀ (choice : RowChoice) (db : Database), (∀ kind, Function.Injective (db.entityUuid kind)) →
      ∀ (evidence : IdEvidence) (asOf : PgDate) (knownAt clock clock' : PgTime) (id id' : ℕ) (store : EntityStore),
        EntityStore.empty.resolveEntity choice db.ontology evidence.raw evidence.role asOf knownAt clock = .ok (id, store) →
        evidence.backfilled db clock' = some id' →
        parseAlias evidence.raw evidence.role = evidence.form db ∧ id = id' := by
  intro hall
  have hcapture : (EntityStore.empty.resolveEntity .stored (sampleDatabase fun _ => 0).ontology "issuer:cik:320193"
      "issuer" newYear (midnight 0) (midnight 9)).toOption.any fun found => found.1 = cikIssuer := by decide +kernel
  obtain ⟨⟨id, store⟩, hok, hid⟩ := exists_ok_of_any hcapture
  have hbackfill : (issuerEvidence "issuer:cik:320193").backfilled (sampleDatabase fun _ => 0) (midnight 9) =
      some 117149669837732290434158211997995792830 := by decide +kernel
  have hsame := (hall .stored (sampleDatabase fun _ => 0) (fun _ => sampleUuid_injective)
    (issuerEvidence "issuer:cik:320193") newYear (midnight 0) (midnight 9) (midnight 9) _ _ store hok hbackfill).2
  rw [show id = cikIssuer from of_decide_eq_true hid] at hsame
  exact absurd hsame (by decide)

/-- An issuer with an id of its own is minted once. -/
theorem own_id_is_minted_once :
    ∃ id store, EntityStore.empty.resolveEntity .stored (sampleDatabase fun _ => 0).ontology "custom:random:id" "issuer"
        newYear (midnight 0) (midnight 9) = .ok (id, store) ∧
      (issuerEvidence "custom:random:id").backfilled (sampleDatabase fun _ => 0) (midnight 9) = some id := by
  have hcapture : (EntityStore.empty.resolveEntity .stored (sampleDatabase fun _ => 0).ontology "custom:random:id"
      "issuer" newYear (midnight 0) (midnight 9)).toOption.any fun _ => True := by decide +kernel
  obtain ⟨⟨id, store⟩, hok, -⟩ := exists_ok_of_any hcapture
  have hbackfill : (issuerEvidence "custom:random:id").backfilled (sampleDatabase fun _ => 0) (midnight 9) =
      some 300717964347332889805766222922673965890 := by decide +kernel
  have hsame := ((same_mint_iff_untyped .stored (sampleDatabase fun _ => 0) (fun _ => sampleUuid_injective)
    (issuerEvidence "custom:random:id") newYear (midnight 0) (midnight 9) (midnight 9) id _ store hok hbackfill).mpr
      (by decide +kernel)).2
  exact ⟨id, store, hok, hsame ▸ hbackfill⟩

end TrueAlpha.Datahub
