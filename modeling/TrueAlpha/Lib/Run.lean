import Mathlib.Data.List.Forall2

/-!
# Runs that can fail

A program that may raise is a function into `Except ε`, a loop over a list is `List.foldlM`.  `foldlM_total` shows that a loop
returns, `foldlM_inv` what it kept, `foldlM_sim` that a second one follows it.  `AtEach f l b P`: `P` holds at every iteration
that is reached.
-/

namespace TrueAlpha

universe u

variable {ε : Type*} {α β γ : Type u} {x : Except ε α} {b : β}

theorem bind_eq_ok_iff {f : α → Except ε β} : (x >>= f) = .ok b ↔ ∃ a, x = .ok a ∧ f a = .ok b := by
  cases x with
  | error e =>
    constructor
    · intro h
      cases h
    · rintro ⟨_, h, _⟩
      cases h
  | ok a =>
    constructor
    · exact fun h => ⟨a, rfl, h⟩
    · rintro ⟨_, h, h'⟩
      cases h
      exact h'

variable {b r : β} {a : α} {f : β → α → Except ε β} {l : List α}

theorem check_bind_eq_ok_iff {x : Except ε PUnit.{u + 1}} {f : PUnit.{u + 1} → Except ε β} :
    (x >>= f) = .ok b ↔ x = .ok ⟨⟩ ∧ f ⟨⟩ = .ok b :=
  bind_eq_ok_iff.trans ⟨fun ⟨_, hx, hf⟩ => ⟨hx, hf⟩, fun ⟨hx, hf⟩ => ⟨⟨⟩, hx, hf⟩⟩

theorem bind_eq_error_iff {f : α → Except ε β} {e : ε} :
    (x >>= f) = .error e ↔ x = .error e ∨ ∃ a, x = .ok a ∧ f a = .error e := by
  cases x with
  | error e' =>
    constructor
    · intro h
      cases h
      exact Or.inl rfl
    · rintro (h | ⟨_, h, _⟩)
      · exact congrArg Except.error (Except.error.inj h)
      · cases h
  | ok a =>
    constructor
    · exact fun h => Or.inr ⟨a, rfl, h⟩
    · rintro (h | ⟨_, h, h'⟩)
      · cases h
      · cases h
        exact h'

theorem pure_eq_ok_iff {b : α} : (pure a : Except ε α) = .ok b ↔ a = b :=
  ⟨fun h => by cases h; rfl, fun h => by rw [h]; rfl⟩

theorem ok_eq_pure_iff {b : α} : .ok b = (pure a : Except ε α) ↔ b = a := eq_comm.trans (pure_eq_ok_iff.trans eq_comm)

@[simp] theorem ok_bind (a : α) (f : α → Except ε β) : ((Except.ok a : Except ε α) >>= f) = f a := rfl

@[simp] theorem not_throw_eq_ok (e : ε) (a : α) : ¬ (throw e : Except ε α) = .ok a := by
  intro h
  cases h

theorem guard_eq_ok_iff {c : Prop} [Decidable c] {e : ε} : (if c then .error e else x) = .ok a ↔ ¬ c ∧ x = .ok a := by
  split <;> simp_all

theorem map_eq_ok_iff {f : α → β} : x.map f = .ok b ↔ ∃ a, x = .ok a ∧ f a = b := by
  cases x with
  | error e => simp [Except.map]
  | ok a => simp [Except.map]

theorem foldlM_nil_eq_ok : ([] : List α).foldlM f b = .ok r ↔ b = r := pure_eq_ok_iff

theorem foldlM_cons_eq_ok : (a :: l).foldlM f b = .ok r ↔ ∃ m, f b a = .ok m ∧ l.foldlM f m = .ok r := by
  rw [List.foldlM_cons, bind_eq_ok_iff]

theorem foldlM_append_eq_ok {l₁ l₂ : List α} :
    (l₁ ++ l₂).foldlM f b = .ok r ↔ ∃ m, l₁.foldlM f b = .ok m ∧ l₂.foldlM f m = .ok r := by
  rw [List.foldlM_append, bind_eq_ok_iff]

variable {l : List α} {r : List β}

/-- A list of runs that returned, result by result. -/
theorem mapM_eq_ok_iff {f : α → Except ε β} : l.mapM f = .ok r ↔ List.Forall₂ (fun a b => f a = .ok b) l r := by
  induction l generalizing r with
  | nil =>
    rw [List.mapM_nil, pure_eq_ok_iff, List.forall₂_nil_left_iff, eq_comm]
  | cons a l ih =>
    rw [List.mapM_cons, List.forall₂_cons_left_iff]
    constructor
    · intro h
      obtain ⟨b, hb, h⟩ := bind_eq_ok_iff.mp h
      obtain ⟨rest, hrest, h⟩ := bind_eq_ok_iff.mp h
      exact ⟨b, rest, hb, ih.mp hrest, (pure_eq_ok_iff.mp h).symm⟩
    · rintro ⟨b, rest, hb, hrest, rfl⟩
      rw [hb, ok_bind, ih.mpr hrest, ok_bind]
      rfl

theorem mapM_congr_mem {f g : α → Except ε β} (h : ∀ a ∈ l, f a = g a) : l.mapM f = l.mapM g := by
  induction l with
  | nil => rfl
  | cons a l ih =>
    rw [List.mapM_cons, List.mapM_cons, h a List.mem_cons_self, ih fun a' ha' => h a' (List.mem_cons_of_mem _ ha')]

theorem mapM_ok (f : α → β) (l : List α) : l.mapM (fun a => (.ok (f a) : Except ε β)) = .ok (l.map f) := by
  induction l with
  | nil => rfl
  | cons a l ih => rw [List.mapM_cons, ih]; rfl

theorem exists_mapM_ok {f : α → Except ε β} (h : ∀ a ∈ l, ∃ b, f a = .ok b) : ∃ r, l.mapM f = .ok r := by
  induction l with
  | nil => exact ⟨[], rfl⟩
  | cons a l ih =>
    obtain ⟨b, hb⟩ := h a List.mem_cons_self
    obtain ⟨r, hr⟩ := ih fun a' ha' => h a' (List.mem_cons_of_mem _ ha')
    exact ⟨b :: r, by rw [List.mapM_cons, hb, ok_bind, hr, ok_bind]; rfl⟩

/-- Runs that return, each in a relation to its element. -/
theorem exists_mapM_of_forall {P : α → β → Prop} {f : α → Except ε β}
    (h : ∀ a ∈ l, ∃ b, f a = .ok b ∧ P a b) : ∃ r, l.mapM f = .ok r ∧ List.Forall₂ P l r := by
  induction l with
  | nil => exact ⟨[], rfl, .nil⟩
  | cons a l ih =>
    obtain ⟨b, hb, hP⟩ := h a List.mem_cons_self
    obtain ⟨r, hr, hall⟩ := ih fun a' ha' => h a' (List.mem_cons_of_mem _ ha')
    exact ⟨b :: r, by rw [List.mapM_cons, hb, ok_bind, hr, ok_bind]; rfl, .cons hP hall⟩

theorem map_eq_map_of_forall₂ {δ : Type*} {f : α → δ} {g : β → δ}
    (h : List.Forall₂ (fun a b => g b = f a) l r) : r.map g = l.map f := by
  induction h with
  | nil => rfl
  | cons hhead _ ih => rw [List.map_cons, List.map_cons, hhead, ih]

/-- The runs of a permuted list return permuted results. -/
theorem mapM_perm {f : α → Except ε β} {l l' : List α} (hperm : l.Perm l') (h : l.mapM f = .ok r) :
    ∃ r', l'.mapM f = .ok r' ∧ r.Perm r' := by
  induction hperm generalizing r with
  | nil => exact ⟨r, h, .refl _⟩
  | cons a _ ih =>
    obtain ⟨b, rest, hb, hrest, rfl⟩ := List.forall₂_cons_left_iff.mp (mapM_eq_ok_iff.mp h)
    obtain ⟨r', hr', hperm⟩ := ih (mapM_eq_ok_iff.mpr hrest)
    exact ⟨b :: r', mapM_eq_ok_iff.mpr (.cons hb (mapM_eq_ok_iff.mp hr')), hperm.cons b⟩
  | swap a a' l =>
    obtain ⟨b, rest, hb, hrest, rfl⟩ := List.forall₂_cons_left_iff.mp (mapM_eq_ok_iff.mp h)
    obtain ⟨b', rest', hb', hrest', rfl⟩ := List.forall₂_cons_left_iff.mp hrest
    exact ⟨b' :: b :: rest', mapM_eq_ok_iff.mpr (.cons hb' (.cons hb hrest')), .swap _ _ _⟩
  | trans _ _ ih ih' =>
    obtain ⟨r', hr', hperm⟩ := ih h
    obtain ⟨r'', hr'', hperm'⟩ := ih' hr'
    exact ⟨r'', hr'', hperm.trans hperm'⟩

theorem exists_of_mem_forall₂ {P : α → β → Prop} (h : List.Forall₂ P l r) {a : α} (ha : a ∈ l) : ∃ b ∈ r, P a b := by
  induction h with
  | nil => cases ha
  | cons hhead _ ih =>
    obtain rfl | ha := List.mem_cons.mp ha
    · exact ⟨_, List.mem_cons_self, hhead⟩
    · obtain ⟨b, hmem, hb⟩ := ih ha
      exact ⟨b, List.mem_cons_of_mem _ hmem, hb⟩

theorem mem_of_mapM {f : α → Except ε β} (h : l.mapM f = .ok r) (ha : a ∈ l) : ∃ b ∈ r, f a = .ok b :=
  exists_of_mem_forall₂ (mapM_eq_ok_iff.mp h) ha

theorem exists_of_mem_mapM {f : α → Except ε β} (h : l.mapM f = .ok r) (hb : b ∈ r) : ∃ a ∈ l, f a = .ok b :=
  exists_of_mem_forall₂ (List.Forall₂.flip (mapM_eq_ok_iff.mp h)) hb

/-- A check of every element passes when the check of each one does. -/
theorem forM_eq_ok_iff {f : α → Except ε PUnit.{u + 1}} : l.forM f = .ok ⟨⟩ ↔ ∀ a ∈ l, f a = .ok ⟨⟩ := by
  induction l with
  | nil => exact ⟨fun _ _ ha => (List.not_mem_nil ha).elim, fun _ => rfl⟩
  | cons a l ih =>
    change (f a >>= fun _ => l.forM f) = _ ↔ _
    rw [bind_eq_ok_iff, List.forall_mem_cons]
    constructor
    · intro ⟨_, ha, hl⟩
      exact ⟨ha, ih.mp hl⟩
    · intro ⟨ha, hl⟩
      exact ⟨⟨⟩, ha, ih.mpr hl⟩

variable {f : β → α → Except ε β} {b r : β}

/-- Every iteration of a loop that returned did return. -/
theorem step_of_foldlM (h : l.foldlM f b = .ok r) {a : α} (ha : a ∈ l) : ∃ s s', f s a = .ok s' := by
  induction l generalizing b with
  | nil => cases ha
  | cons x l ih =>
    obtain ⟨m, hx, hl⟩ := foldlM_cons_eq_ok.mp h
    obtain rfl | ha := List.mem_cons.mp ha
    · exact ⟨b, m, hx⟩
    · exact ih hl ha

theorem foldlM_total (I : List α → β → Prop) (l : List α) (hb : I [] b)
    (step : ∀ pre a post b, l = pre ++ a :: post → I pre b → ∃ b', f b a = .ok b' ∧ I (pre ++ [a]) b') :
    ∃ r, l.foldlM f b = .ok r ∧ I l r := by
  -- generalize over the elements already processed
  suffices h : ∀ (post pre : List α) (b : β), l = pre ++ post → I pre b →
      ∃ r, post.foldlM f b = .ok r ∧ I l r from h l [] b rfl hb
  intro post
  induction post with
  | nil =>
    intro pre b hl hI
    rw [List.append_nil] at hl
    exact ⟨b, rfl, hl ▸ hI⟩
  | cons a post ih =>
    intro pre b hl hI
    obtain ⟨b', hf, hI'⟩ := step pre a post b hl hI
    obtain ⟨r, hr, hIr⟩ := ih (pre ++ [a]) b' (by simpa using hl) hI'
    exact ⟨r, foldlM_cons_eq_ok.2 ⟨b', hf, hr⟩, hIr⟩

/-- Partial correctness of a loop. -/
theorem foldlM_inv (I : List α → β → Prop) (hr : l.foldlM f b = .ok r) (hb : I [] b)
    (step : ∀ pre a post b b', l = pre ++ a :: post → I pre b → f b a = .ok b' → I (pre ++ [a]) b') :
    I l r := by
  suffices h : ∀ (post pre : List α) (b : β), l = pre ++ post → I pre b → post.foldlM f b = .ok r → I l r from h l [] b rfl hb hr
  intro post
  induction post with
  | nil =>
    intro pre b hl hI hr
    rw [List.append_nil] at hl
    obtain rfl := foldlM_nil_eq_ok.1 hr
    exact hl ▸ hI
  | cons a post ih =>
    intro pre b hl hI hr
    obtain ⟨b', hf, hr⟩ := foldlM_cons_eq_ok.1 hr
    exact ih (pre ++ [a]) b' (by simpa using hl) (step pre a post b b' hl hI hf) hr

variable {g : γ → α → Except ε γ}

/-- A loop that returned is followed by a second loop over the same list. -/
theorem foldlM_sim (R : List α → β → γ → Prop) {c : γ} (hr : l.foldlM f b = .ok r) (hb : R [] b c)
    (step : ∀ pre a post b c b', l = pre ++ a :: post → R pre b c → f b a = .ok b' →
      ∃ c', g c a = .ok c' ∧ R (pre ++ [a]) b' c') :
    ∃ r', l.foldlM g c = .ok r' ∧ R l r r' := by
  suffices h : ∀ (post pre : List α) (b : β) (c : γ), l = pre ++ post → R pre b c →
      post.foldlM f b = .ok r → ∃ r', post.foldlM g c = .ok r' ∧ R l r r' from
    h l [] b c rfl hb hr
  intro post
  induction post with
  | nil =>
    intro pre b c hl hR hr
    rw [List.append_nil] at hl
    obtain rfl := foldlM_nil_eq_ok.1 hr
    exact ⟨c, rfl, hl ▸ hR⟩
  | cons a post ih =>
    intro pre b c hl hR hr
    obtain ⟨b', hf, hr⟩ := foldlM_cons_eq_ok.1 hr
    obtain ⟨c', hg, hR'⟩ := step pre a post b c b' hl hR hf
    obtain ⟨r', hr', hRr⟩ := ih (pre ++ [a]) b' c' (by simpa using hl) hR' hr
    exact ⟨r', foldlM_cons_eq_ok.2 ⟨c', hg, hr'⟩, hRr⟩

/-- A returned loop is followed by the loop over the images of its elements, when each iteration commutes with the change of
state. -/
theorem foldlM_map_ok {δ : Type u} {g : γ → δ → Except ε γ} (φ : β → γ) (ψ : α → δ) (hr : l.foldlM f b = .ok r)
    (step : ∀ b a b', f b a = .ok b' → g (φ b) (ψ a) = .ok (φ b')) :
    (l.map ψ).foldlM g (φ b) = .ok (φ r) := by
  induction l generalizing b with
  | nil =>
    obtain rfl := foldlM_nil_eq_ok.1 hr
    rfl
  | cons a l ih =>
    obtain ⟨b', hf, hr⟩ := foldlM_cons_eq_ok.1 hr
    exact foldlM_cons_eq_ok.2 ⟨φ b', step b a b' hf, ih hr⟩

theorem foldlM_error {P : ε → Prop} {e : ε}
    (h : l.foldlM f b = .error e) (step : ∀ b a e, a ∈ l → f b a = .error e → P e) : P e := by
  induction l generalizing b with
  | nil => cases h
  | cons a l ih =>
    rw [List.foldlM_cons] at h
    rcases hf : f b a with e' | b'
    · rw [hf] at h
      cases h
      exact step b a e List.mem_cons_self hf
    · rw [hf] at h
      exact ih h fun b a e ha => step b a e (List.mem_cons_of_mem _ ha)

/-- `P` holds at every iteration that the loop over `l` from `b` reaches. -/
def AtEach (f : β → α → Except ε β) (l : List α) (b : β) (P : β → α → Prop) : Prop :=
  ∀ pre a post state, l = pre ++ a :: post → pre.foldlM f b = .ok state → P state a

variable {P : β → α → Prop}

theorem AtEach.head (h : AtEach f (a :: l) b P) : P b a := h [] a l b rfl rfl

theorem AtEach.tail {b' : β} (h : AtEach f (a :: l) b P) (hf : f b a = .ok b') : AtEach f l b' P := by
  intro pre a' post state hl hpre
  refine h (a :: pre) a' post state (by rw [hl, List.cons_append]) ?_
  exact foldlM_cons_eq_ok.2 ⟨b', hf, hpre⟩

theorem AtEach.imp {Q : β → α → Prop} (h : AtEach f l b P) (hPQ : ∀ state a, P state a → Q state a) : AtEach f l b Q :=
  fun pre a post state hl hpre => hPQ state a (h pre a post state hl hpre)

theorem AtEach.of_mem {P : α → Prop} (h : ∀ a ∈ l, P a) : AtEach f l b fun _ a => P a := by
  intro pre a post _ hl _
  exact h a (by rw [hl]; simp)

/-- Two loops whose iterations agree wherever both are reached are equal. -/
theorem foldlM_congr {f g : β → α → Except ε β} {P Q : β → α → Prop}
    (hf : AtEach f l b P) (hg : AtEach g l b Q) (step : ∀ b a, P b a → Q b a → f b a = g b a) :
    l.foldlM f b = l.foldlM g b := by
  induction l generalizing b with
  | nil => rfl
  | cons a l ih =>
    have heq := step b a hf.head hg.head
    rw [List.foldlM_cons, List.foldlM_cons, ← heq]
    rcases hb : f b a with e | b'
    · rfl
    · exact ih (hf.tail hb) (hg.tail (heq.symm.trans hb))

/-- What holds at each iteration of a loop's image holds, pulled back, at each of the loop. -/
theorem AtEach.comap (φ : β → γ) {P : γ → α → Prop} (h : AtEach g l (φ b) P)
    (step : ∀ b a b', f b a = .ok b' → g (φ b) a = .ok (φ b')) :
    AtEach f l b fun state a => P (φ state) a := by
  intro pre a post state hl hpre
  refine h pre a post (φ state) hl ?_
  simpa using foldlM_map_ok φ id hpre step

/-! ### Decidable statements about a result -/

instance decidableForallOk {x : Except ε α} {P : α → Prop} [∀ a, Decidable (P a)] :
    Decidable (∀ a, x = .ok a → P a) :=
  match x with
  | .error _ => isTrue fun _ h => nomatch h
  | .ok a => decidable_of_iff (P a) ⟨fun h _ ha => Except.ok.inj ha ▸ h, fun h => h a rfl⟩

instance decidableForallSome {x : Option α} {P : α → Prop} [∀ a, Decidable (P a)] :
    Decidable (∀ a, x = some a → P a) :=
  match x with
  | none => isTrue fun _ h => nomatch h
  | some a => decidable_of_iff (P a) ⟨fun h _ ha => Option.some.inj ha ▸ h, fun h => h a rfl⟩

/-- A run that returns what a check accepts. -/
theorem exists_ok_of_any {p : α → Bool} (h : x.toOption.any p) : ∃ a, x = .ok a ∧ p a := by
  cases x with
  | error e => cases h
  | ok a => exact ⟨a, rfl, h⟩

theorem atEach_nil : AtEach f [] b P := by
  intro pre a post _ hl _
  cases pre <;> cases hl

theorem atEach_cons_iff {a : α} {P : β → α → Prop} : AtEach f (a :: l) b P ↔ P b a ∧ ∀ b', f b a = .ok b' → AtEach f l b' P := by
  refine ⟨fun h => ⟨h.head, fun b' hb' => h.tail hb'⟩, ?_⟩
  intro ⟨hhead, htail⟩ pre a' post state hl hpre
  cases pre with
  | nil =>
    cases hl
    obtain rfl := foldlM_nil_eq_ok.1 hpre
    exact hhead
  | cons a₀ pre =>
    cases hl
    obtain ⟨b', hb', hpre⟩ := foldlM_cons_eq_ok.1 hpre
    exact htail b' hb' pre a' post state rfl hpre

instance decidableAtEach {f : β → α → Except ε β} {P : β → α → Prop} [∀ b a, Decidable (P b a)] :
    (l : List α) → (b : β) → Decidable (AtEach f l b P)
  | [], _ => isTrue atEach_nil
  | _ :: l, _ =>
    have (b' : β) : Decidable (AtEach f l b' P) := decidableAtEach l b'
    decidable_of_iff _ atEach_cons_iff.symm

/-! ### Two runs -/

/-- Two runs that raise the same error, or that return related values. -/
inductive Alike {α' : Type u} (R : α → α' → Prop) : Except ε α → Except ε α' → Prop
  | error (e : ε) : Alike R (.error e) (.error e)
  | ok {a : α} {b : α'} (h : R a b) : Alike R (.ok a) (.ok b)

section

variable {α' β' γ' : Type u} {R : α → α' → Prop} {S : β → β' → Prop}

theorem Alike.refl {R : α → α → Prop} (h : ∀ a, R a a) (x : Except ε α) : Alike R x x := by
  cases x with
  | error e => exact .error e
  | ok a => exact .ok (h a)

variable {y : Except ε α'}

theorem Alike.imp {R' : α → α' → Prop} (h : Alike R x y) (himp : ∀ a b, R a b → R' a b) : Alike R' x y := by
  cases h with
  | error e => exact .error e
  | ok h => exact .ok (himp _ _ h)

theorem Alike.bind {f : α → Except ε β} {g : α' → Except ε β'}
    (h : Alike R x y) (hfg : ∀ a b, R a b → Alike S (f a) (g b)) : Alike S (x >>= f) (y >>= g) := by
  cases h with
  | error e => exact .error e
  | ok h => exact hfg _ _ h

/-- Two runs that start with one and the same computation. -/
theorem Alike.bind_self {f : α → Except ε β} {g : α → Except ε β'} (hfg : ∀ a, Alike S (f a) (g a)) :
    Alike S (x >>= f) (x >>= g) := by
  cases x with
  | error e => exact .error e
  | ok a => exact hfg a

/-- Of two runs that are alike, both return or none does. -/
theorem Alike.ok_iff (h : Alike R x y) : (∃ a, x = .ok a) ↔ ∃ b, y = .ok b := by
  cases h with
  | error e => exact ⟨nofun, nofun⟩
  | ok h => exact ⟨fun _ => ⟨_, rfl⟩, fun _ => ⟨_, rfl⟩⟩

theorem Alike.map {f : α → β} {g : α' → β'} (h : Alike R x y)
    (hfg : ∀ a b, R a b → S (f a) (g b)) : Alike S (x.map f) (y.map g) := by
  cases h with
  | error e => exact .error e
  | ok h => exact .ok (hfg _ _ h)

theorem Alike.mapM {f : α → Except ε β} {g : α' → Except ε β'} {l' : List α'}
    (hl : List.Forall₂ (fun a b => Alike S (f a) (g b)) l l') : Alike (List.Forall₂ S) (l.mapM f) (l'.mapM g) := by
  induction hl with
  | nil => exact .ok .nil
  | cons h _ ih =>
    rw [List.mapM_cons, List.mapM_cons]
    exact h.bind fun b b' hb => ih.bind fun bs bs' hbs => .ok (.cons hb hbs)

theorem Alike.foldlM {g : β' → α → Except ε β'} {b' : β'}
    (hb : S b b') (step : ∀ b b' a, a ∈ l → S b b' → Alike S (f b a) (g b' a)) :
    Alike S (l.foldlM f b) (l.foldlM g b') := by
  induction l generalizing b b' with
  | nil => exact .ok hb
  | cons a l ih =>
    rw [List.foldlM_cons, List.foldlM_cons]
    exact (step b b' a List.mem_cons_self hb).bind fun m m' hm =>
      ih hm fun c c' a' ha' => step c c' a' (List.mem_cons_of_mem _ ha')

/-- The results of two loops over one list, in pairs. -/
theorem exists_pair_of_forall₂ {κ : Type*} {P : κ → α → Prop} {Q : κ → α' → Prop} {f : α → γ} {g : α' → γ}
    {l : List κ} {as : List α} {bs : List α'} (ha : List.Forall₂ P l as) (hb : List.Forall₂ Q l bs)
    (heq : as.map f = bs.map g) {k : κ} (hk : k ∈ l) : ∃ a b, P k a ∧ Q k b ∧ f a = g b := by
  induction ha generalizing bs with
  | nil => cases hk
  | cons hhead _ ih =>
    cases hb with
    | cons hhead' htail' =>
      obtain ⟨hfirst, hrest⟩ := List.cons.inj heq
      obtain rfl | hk := List.mem_cons.mp hk
      · exact ⟨_, _, hhead, hhead', hfirst⟩
      · exact ih htail' hrest hk

end

theorem foldl_inv {f : β → α → β} (I : List α → β → Prop) (l : List α) (hb : I [] b)
    (step : ∀ pre a post b, l = pre ++ a :: post → I pre b → I (pre ++ [a]) (f b a)) :
    I l (l.foldl f b) := by
  suffices h : ∀ (post pre : List α) (b : β), l = pre ++ post → I pre b → I l (post.foldl f b) from
    h l [] b rfl hb
  intro post
  induction post with
  | nil =>
    intro pre b hl hI
    rw [List.append_nil] at hl
    exact hl ▸ hI
  | cons a post ih =>
    intro pre b hl hI
    exact ih (pre ++ [a]) (f b a) (by simpa using hl) (step pre a post b hl hI)

end TrueAlpha
