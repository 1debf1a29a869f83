import Mathlib.Data.List.DropRight

/-!
# Query texts

The query string of a list of parameters, as `urllib.parse.urlencode` writes it from the bytes of their UTF-8 forms.  No escaped
text holds a separator, so the text determines the parameters (`urlencode_injective`).
-/

namespace TrueAlpha

/-- What is stripped of some characters on both sides stays as it is. -/
theorem strip_idempotent (p : Char → Bool) (l : List Char) :
    ((((l.dropWhile p).reverse.dropWhile p).reverse.dropWhile p).reverse.dropWhile p).reverse =
      ((l.dropWhile p).reverse.dropWhile p).reverse := by
  have hback : ∀ l : List Char, (l.reverse.dropWhile p).reverse = l.rdropWhile p := fun _ => rfl
  have hfront : ((l.dropWhile p).rdropWhile p).dropWhile p = (l.dropWhile p).rdropWhile p := by
    rw [List.dropWhile_eq_self_iff]
    intro hlength
    have hbegins := List.rdropWhile_prefix p (l.dropWhile p)
    have hlength' := hlength.trans_le hbegins.length_le
    have hhead := List.dropWhile_get_zero_not p l hlength'
    rw [hbegins.getElem]
    exact hhead
  rw [hback, hback, hfront, List.rdropWhile_idempotent]

namespace QueryText

/-- An upper-case hexadecimal digit. -/
def hexDigit (n : ℕ) : Char := Char.ofNat (if n < 10 then 48 + n else 55 + n)

/-- The unchanged bytes: the letters, the digits, `_`, `.`, `-` and `~`. -/
def isSafe (n : ℕ) : Bool :=
  (48 ≤ n && n ≤ 57) || (65 ≤ n && n ≤ 90) || (97 ≤ n && n ≤ 122) || n == 95 || n == 46 || n == 45 || n == 126

def quoteByte (n : ℕ) : List Char :=
  if n = 32 then ['+'] else if isSafe n then [Char.ofNat n] else ['%', hexDigit (n / 16), hexDigit (n % 16)]

def utf8Bytes (text : String) : List UInt8 := text.toList.flatMap String.utf8EncodeChar

def quotePlus (text : String) : List Char := (utf8Bytes text).flatMap fun byte => quoteByte byte.toNat

/-- `name=value`. -/
def quotePair (item : String × String) : List Char := quotePlus item.1 ++ '=' :: quotePlus item.2

/-- The parameters joined by `&`. -/
def urlencode (items : List (String × String)) : List Char := ['&'].intercalate (items.map quotePair)

/-! ## Bytes -/

variable {n : ℕ} {c : Char} {items : List (String × String)}

theorem toNat_ofNat (h : n < 256) : (Char.ofNat n).toNat = n := by
  have hvalid : n.isValidChar := .inl (by omega)
  unfold Char.ofNat
  rw [dif_pos hvalid]
  rfl

theorem ofNat_ne (h : n < 256) (hne : n ≠ c.toNat) : Char.ofNat n ≠ c := by
  intro heq
  exact hne (by rw [← heq, toNat_ofNat h])

theorem toNat_hexDigit (h : n < 16) : (hexDigit n).toNat = if n < 10 then 48 + n else 55 + n := by
  unfold hexDigit
  exact toNat_ofNat (by split_ifs <;> omega)

theorem hexDigit_inj {m : ℕ} (hm : m < 16) (hn : n < 16) (h : hexDigit m = hexDigit n) : m = n := by
  have heq := congrArg Char.toNat h
  rw [toNat_hexDigit hm, toNat_hexDigit hn] at heq
  split_ifs at heq <;> omega

theorem hexDigit_ne (h : n < 16) (hc : c.toNat < 48 ∨ 57 < c.toNat ∧ c.toNat < 65) : hexDigit n ≠ c := by
  intro heq
  rw [← heq, toNat_hexDigit h] at hc
  split_ifs at hc <;> omega

/-- A safe byte is no mark of the code and no separator of a query. -/
theorem safe_bounds (h : isSafe n = true) : n < 127 ∧ n ≠ 43 ∧ n ≠ 37 ∧ n ≠ 38 ∧ n ≠ 61 := by
  unfold isSafe at h
  simp only [Bool.or_eq_true, Bool.and_eq_true, decide_eq_true_eq, beq_iff_eq] at h
  omega

/-- The text of a byte can be read off the front of a text. -/
theorem quoteByte_readable {m : ℕ} (hm : m < 256) (hn : n < 256) {rest rest' : List Char}
    (h : quoteByte m ++ rest = quoteByte n ++ rest') : m = n ∧ rest = rest' := by
  have hplus : ∀ k < 256, isSafe k = true → Char.ofNat k ≠ '+' := fun k hk hsafe => ofNat_ne hk (safe_bounds hsafe).2.1
  have hpercent : ∀ k < 256, isSafe k = true → Char.ofNat k ≠ '%' := fun k hk hsafe => ofNat_ne hk (safe_bounds hsafe).2.2.1
  unfold quoteByte at h
  split_ifs at h with h1 h2 h3 h4 h5 h6 h7 h8
  · exact ⟨h1.trans h2.symm, (List.cons.inj h).2⟩
  · exact absurd (List.cons.inj h).1.symm (hplus n hn h3)
  · exact absurd (List.cons.inj h).1 (by decide)
  · exact absurd (List.cons.inj h).1 (hplus m hm h4)
  · obtain ⟨hhead, hrest⟩ := List.cons.inj h
    have := congrArg Char.toNat hhead
    rw [toNat_ofNat hm, toNat_ofNat hn] at this
    exact ⟨this, hrest⟩
  · exact absurd (List.cons.inj h).1 (hpercent m hm h4)
  · exact absurd (List.cons.inj h).1 (by decide)
  · exact absurd (List.cons.inj h).1.symm (hpercent n hn h8)
  · obtain ⟨-, htail⟩ := List.cons.inj h
    obtain ⟨hhigh, htail⟩ := List.cons.inj htail
    obtain ⟨hlow, hrest⟩ := List.cons.inj htail
    have hdiv := hexDigit_inj (by omega) (by omega) hhigh
    have hmod := hexDigit_inj (by omega) (by omega) hlow
    exact ⟨by omega, hrest⟩

theorem quoteByte_ne_nil (n : ℕ) : quoteByte n ≠ [] := by
  unfold quoteByte
  split_ifs <;> exact List.cons_ne_nil _ _

theorem ne_of_mem_quoteByte (hn : n < 256) (h : c ∈ quoteByte n) : c ≠ '&' ∧ c ≠ '=' := by
  unfold quoteByte at h
  split_ifs at h with hspace hsafe
  · rw [List.mem_singleton.mp h]
    decide
  · obtain ⟨-, -, -, hand, hequals⟩ := safe_bounds hsafe
    rw [List.mem_singleton.mp h]
    exact ⟨ofNat_ne hn hand, ofNat_ne hn hequals⟩
  · simp only [List.mem_cons, List.not_mem_nil, or_false] at h
    rcases h with rfl | rfl | rfl
    · decide
    · exact ⟨hexDigit_ne (by omega) (by decide), hexDigit_ne (by omega) (by decide)⟩
    · exact ⟨hexDigit_ne (by omega) (by decide), hexDigit_ne (by omega) (by decide)⟩

theorem quoteBytes_injective : Function.Injective fun bytes : List UInt8 =>
    bytes.flatMap fun byte => quoteByte byte.toNat := by
  intro bytes
  induction bytes with
  | nil =>
    rintro (_ | ⟨b, bytes'⟩) h
    · rfl
    · exact absurd (List.append_eq_nil_iff.mp h.symm).1 (quoteByte_ne_nil _)
  | cons b bytes ih =>
    rintro (_ | ⟨b', bytes'⟩) h
    · exact absurd (List.append_eq_nil_iff.mp h).1 (quoteByte_ne_nil _)
    · obtain ⟨hhead, hrest⟩ := quoteByte_readable b.toNat_lt b'.toNat_lt h
      rw [UInt8.toNat_inj.mp hhead, ih hrest]

theorem utf8Bytes_injective : Function.Injective utf8Bytes := by
  intro text text' h
  have hencode : text.toList.utf8Encode = text'.toList.utf8Encode := congrArg List.toByteArray h
  rw [String.utf8Encode_toList, String.utf8Encode_toList] at hencode
  exact String.toByteArray_inj.mp hencode

theorem quotePlus_injective : Function.Injective quotePlus := quoteBytes_injective.comp utf8Bytes_injective

theorem not_mem_quotePlus (text : String) : '&' ∉ quotePlus text ∧ '=' ∉ quotePlus text := by
  have hne : ∀ c ∈ quotePlus text, c ≠ '&' ∧ c ≠ '=' := by
    intro c hc
    obtain ⟨byte, -, hbyte⟩ := List.mem_flatMap.mp hc
    exact ne_of_mem_quoteByte byte.toNat_lt hbyte
  exact ⟨fun h => (hne _ h).1 rfl, fun h => (hne _ h).2 rfl⟩

theorem quotePair_injective : Function.Injective quotePair := by
  rintro ⟨name, value⟩ ⟨name', value'⟩ h
  obtain ⟨hname, -, hvalue⟩ := (List.append_cons_inj_of_notMem (not_mem_quotePlus name).2 (not_mem_quotePlus value).2).mp h
  rw [quotePlus_injective hname, quotePlus_injective hvalue]

theorem not_mem_quotePair (item : String × String) : '&' ∉ quotePair item := by
  rw [quotePair, List.mem_append, List.mem_cons, not_or, not_or]
  exact ⟨(not_mem_quotePlus _).1, by decide, (not_mem_quotePlus _).1⟩

theorem splitOn_urlencode (h : items ≠ []) : (urlencode items).splitOn '&' = items.map quotePair := by
  refine List.splitOn_intercalate '&' (fun l hl => ?_) (by simpa using h)
  obtain ⟨item, -, rfl⟩ := List.mem_map.mp hl
  exact not_mem_quotePair item

theorem urlencode_ne_nil (h : items ≠ []) : urlencode items ≠ [] := by
  intro hnil
  have hsplit := splitOn_urlencode h
  rw [hnil] at hsplit
  obtain ⟨item, rest, rfl⟩ := List.exists_cons_of_ne_nil h
  have hhead : [] = quotePair item := (List.cons.inj hsplit).1
  exact absurd hhead.symm (by simp [quotePair])

theorem urlencode_injective : Function.Injective urlencode := by
  intro items items' h
  by_cases hitems : items = []
  · subst hitems
    by_contra hne
    exact urlencode_ne_nil (Ne.symm hne) h.symm
  · have hitems' : items' ≠ [] := fun hnil => urlencode_ne_nil hitems (h.trans (by rw [hnil]; rfl))
    have hmap : items.map quotePair = items'.map quotePair := by
      rw [← splitOn_urlencode hitems, ← splitOn_urlencode hitems', h]
    exact quotePair_injective.list_map hmap

end QueryText

end TrueAlpha
