import Std.Data.String.ToInt
import TrueAlpha.Lib.Json

/-!
# Prefix codes

A code can be read off the front of any text (`PrefixCode.readable`).  Codes of parts make a code of the whole, so the text of a
value determines it (`encode_injective`).
-/

namespace TrueAlpha

/-- A code whose words can be read off the front of a text. -/
structure PrefixCode (α : Type) where
  write : α → List Char
  readable : ∀ a b rest rest', write a ++ rest = write b ++ rest' → a = b ∧ rest = rest'

namespace PrefixCode

variable {α β : Type}

/-- The text of a value. -/
def encode (code : PrefixCode α) (a : α) : String := String.ofList (code.write a)

theorem encode_injective (code : PrefixCode α) : Function.Injective code.encode := by
  intro a b h
  have hwords : code.write a = code.write b := String.ofList_injective h
  exact (code.readable a b [] [] (by rw [List.append_nil, List.append_nil, hwords])).1

/-- The code of an injective image. -/
def comap (code : PrefixCode β) (f : α → β) (hf : Function.Injective f) : PrefixCode α where
  write a := code.write (f a)
  readable a b rest rest' h := (code.readable (f a) (f b) rest rest' h).imp_left (hf ·)

/-- One part after the other. -/
def pair (code : PrefixCode α) (code' : PrefixCode β) : PrefixCode (α × β) where
  write ab := code.write ab.1 ++ code'.write ab.2
  readable := by
    rintro ⟨a, b⟩ ⟨a', b'⟩ rest rest' h
    rw [List.append_assoc, List.append_assoc] at h
    obtain ⟨rfl, hrest⟩ := code.readable _ _ _ _ h
    obtain ⟨rfl, rfl⟩ := code'.readable _ _ _ _ hrest
    exact ⟨rfl, rfl⟩

/-- A mark in front of each element, and another one at the end. -/
def writeList (write : α → List Char) : List α → List Char
  | [] => ['.']
  | a :: rest => '-' :: (write a ++ writeList write rest)

def list (code : PrefixCode α) : PrefixCode (List α) where
  write := writeList code.write
  readable := by
    intro l
    induction l with
    | nil =>
      rintro (_ | ⟨b, l'⟩) rest rest' h
      · exact ⟨rfl, (List.cons.inj h).2⟩
      · exact absurd (List.cons.inj h).1 (by decide)
    | cons a l ih =>
      rintro (_ | ⟨b, l'⟩) rest rest' h
      · exact absurd (List.cons.inj h).1 (by decide)
      · simp only [writeList, List.cons_append, List.cons.injEq, true_and, List.append_assoc] at h
        obtain ⟨rfl, htail⟩ := code.readable _ _ _ _ h
        obtain ⟨rfl, rfl⟩ := ih l' rest rest' htail
        exact ⟨rfl, rfl⟩

def char : PrefixCode Char where
  write c := [c]
  readable _ _ _ _ h := List.cons.inj h

def text : PrefixCode String := (list char).comap String.toList fun _ _ => String.toList_inj.mp

def int : PrefixCode ℤ := text.comap Int.repr fun _ _ => Int.repr_injective

def nat : PrefixCode ℕ := int.comap (fun n : ℕ => (n : ℤ)) fun _ _ => Int.ofNat_inj.mp

def rat : PrefixCode ℚ :=
  (int.pair nat).comap (fun q => (q.num, q.den)) fun _ _ h => Rat.ext (Prod.ext_iff.mp h).1 (Prod.ext_iff.mp h).2

def option (code : PrefixCode α) : PrefixCode (Option α) :=
  code.list.comap Option.toList fun a b h => by cases a <;> cases b <;> simp_all

/-- A mark for the constructor in front of its fields. -/
def writeJson : Json → List Char
  | .null => ['z']
  | .text value => 't' :: text.write value
  | .number value => 'n' :: int.write value
  | .decimal value => 'd' :: rat.write value
  | .nil => ['.']
  | .cons head tail => '-' :: (writeJson head ++ writeJson tail)
  | .empty => [';']
  | .field key value rest => ':' :: (text.write key ++ (writeJson value ++ writeJson rest))

theorem writeJson_readable (a : Json) : ∀ b rest rest', writeJson a ++ rest = writeJson b ++ rest' → a = b ∧ rest = rest' := by
  induction a with
  | null | nil | empty =>
    intro b rest rest' h
    cases b <;> simp_all [writeJson]
  | text value =>
    intro b rest rest' h
    cases b <;> simp [writeJson] at h
    obtain ⟨rfl, rfl⟩ := text.readable _ _ _ _ h
    exact ⟨rfl, rfl⟩
  | number value =>
    intro b rest rest' h
    cases b <;> simp [writeJson] at h
    obtain ⟨rfl, rfl⟩ := int.readable _ _ _ _ h
    exact ⟨rfl, rfl⟩
  | decimal value =>
    intro b rest rest' h
    cases b <;> simp [writeJson] at h
    obtain ⟨rfl, rfl⟩ := rat.readable _ _ _ _ h
    exact ⟨rfl, rfl⟩
  | cons head tail ihHead ihTail =>
    intro b rest rest' h
    cases b <;> simp [writeJson] at h
    obtain ⟨rfl, htail⟩ := ihHead _ _ _ h
    obtain ⟨rfl, rfl⟩ := ihTail _ _ _ htail
    exact ⟨rfl, rfl⟩
  | field key value rest ihValue ihRest =>
    intro b suffix suffix' h
    cases b <;> simp [writeJson] at h
    obtain ⟨rfl, hvalue⟩ := text.readable _ _ _ _ h
    obtain ⟨rfl, hrest⟩ := ihValue _ _ _ hvalue
    obtain ⟨rfl, rfl⟩ := ihRest _ _ _ hrest
    exact ⟨rfl, rfl⟩

def json : PrefixCode Json := ⟨writeJson, writeJson_readable⟩

end PrefixCode

end TrueAlpha
