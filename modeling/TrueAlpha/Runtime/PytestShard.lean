import Mathlib.Data.String.Basic
import TrueAlpha.Lib.Dict
import TrueAlpha.Lib.GreedyBins

/-!
# Test shards (`truealpha_tools/pytest_shard.py`)

Each lane packs all the files anew and keeps one bin.  The lanes agree because the order of placement does not see the order of
the input (`heaviestFirst_perm`).
-/

namespace TrueAlpha.Runtime

structure Path where
  text : String
  deriving DecidableEq

namespace Path

def isAbsolute (path : Path) : Bool := ['/'].isPrefixOf path.text.toList

def join (root : Path) (key : String) : Path := if (⟨key⟩ : Path).isAbsolute then ⟨key⟩ else ⟨root.text ++ "/" ++ key⟩

def relativeTo (path root : Path) : Except String String :=
  if path = root then .ok "."
  else if (root.text ++ "/").toList.isPrefixOf path.text.toList then
    .ok (String.ofList (path.text.toList.drop (root.text.length + 1)))
  else .error s!"'{path.text}' is not in the subpath of '{root.text}'"

def parts (path : Path) : List String := path.text.splitOn "/"

end Path

/-- The harvest of `load_weights`, and for each file whether it exists and what `test_functions` counts. -/
structure Checkout where
  repoRoot : Path
  weights : Dict String ℚ
  exist : Path → Bool
  testFunctions : Path → ℕ

variable (checkout : Checkout)

def weightOf (path : Path) (rate : ℚ) : Except String ℚ := do
  let key ← if path.isAbsolute then path.relativeTo checkout.repoRoot else pure path.text
  match checkout.weights.get? key with
  | some seconds => return seconds
  | none => return checkout.testFunctions path * rate

def rate : ℚ :=
  let measured := (checkout.weights.keys.map checkout.repoRoot.join).filter checkout.exist
  let measuredTests := (measured.map checkout.testFunctions).sum
  if measuredTests ≠ 0 then checkout.weights.values.sum / measuredTests else 1

def weighed (files : List Path) : Except String (List (Path × ℚ)) :=
  files.mapM fun path => return (path, ← weightOf checkout path (rate checkout))

def heaviestFirst (files : List (Path × ℚ)) : List (Path × ℚ) := sortedBy (fun file => toLex (-file.2, file.1.text)) files

def shard (files : List Path) (index total : ℤ) : Except String (List Path) := do
  if total < 1 then throw s!"total shards must be >= 1, got {total}"
  if ¬ (0 ≤ index ∧ index < total) then throw s!"shard index {index} is out of range for {total} shards"
  let weight ← weighed checkout files
  let (bins, _) := packInto Prod.snd total.toNat (heaviestFirst weight)
  return sortedBy Path.parts ((bins.getD index.toNat []).map Prod.fst)

variable {checkout} {files : List Path} {weight : Path → ℚ}

theorem weighed_eq_ok (h : ∀ path ∈ files, weightOf checkout path (rate checkout) = .ok (weight path)) :
    weighed checkout files = .ok (files.map fun path => (path, weight path)) := by
  rw [← mapM_ok, weighed]
  exact mapM_congr_mem fun path hpath => by rw [h path hpath]; rfl

theorem heaviestFirst_perm {l l' : List (Path × ℚ)} (h : l.Perm l') (hl : (l.map Prod.fst).Nodup) :
    heaviestFirst l = heaviestFirst l' := by
  refine sortedBy_eq_of_perm _ h ?_
  rw [List.nodup_map_iff_inj_on (List.Nodup.of_map _ hl)]
  intro a ha b hb hab
  have htext : a.1.text = b.1.text := congrArg (fun key => (ofLex key).2) hab
  refine List.inj_on_of_nodup_map hl ha hb ?_
  cases ha1 : a.1
  cases hb1 : b.1
  simpa [ha1, hb1] using htext

def laneOf (bin : List (Path × ℚ)) : List Path := sortedBy Path.parts (bin.map Prod.fst)

theorem flatten_laneOf_perm (bins : List (List (Path × ℚ))) : (bins.map laneOf).flatten.Perm (bins.flatten.map Prod.fst) := by
  induction bins with
  | nil => exact List.Perm.refl _
  | cons bin bins ih =>
    rw [List.map_cons, List.flatten_cons, List.flatten_cons, List.map_append]
    exact (perm_sortedBy Path.parts _).append ih

theorem sum_laneOf {bin : List (Path × ℚ)} (h : ∀ file ∈ bin, file.2 = weight file.1) :
    ((laneOf bin).map weight).sum = binLoad Prod.snd bin := by
  rw [laneOf, ((perm_sortedBy Path.parts _).map weight).sum_eq, List.map_map, binLoad]
  exact congrArg List.sum (List.map_congr_left fun file hfile => (h file hfile).symm)

/-- Every lane returns, whatever the order of its input; the lanes partition the files, and no two loads differ by more than the
greatest weight. -/
theorem shard_partitions (hfiles : files.Nodup)
    (hweight : ∀ path ∈ files, weightOf checkout path (rate checkout) = .ok (weight path) ∧ 0 ≤ weight path)
    {total : ℕ} (htotal : 1 ≤ total) {input : ℕ → List Path} (hinput : ∀ i < total, (input i).Perm files) :
    ∃ shards : List (List Path), shards.length = total ∧
      (∀ i < total, shard checkout (input i) i total = .ok (shards.getD i [])) ∧
      shards.Pairwise List.Disjoint ∧ shards.flatten.Perm files ∧
      ∀ lane ∈ shards, ∀ other ∈ shards, (lane.map weight).sum - (other.map weight).sum ≤ (files.map weight).foldr max 0 := by
  have hfst : ∀ l : List Path, (l.map fun path => (path, weight path)).map Prod.fst = l := fun l => by
    rw [List.map_map]
    exact List.map_id l
  set order := heaviestFirst (files.map fun path => (path, weight path)) with horder
  set W := (files.map weight).foldr max 0 with hW
  have hsorted : order.Perm (files.map fun path => (path, weight path)) := perm_sortedBy _ _
  have hentry : ∀ file ∈ order, file.1 ∈ files ∧ file.2 = weight file.1 := by
    intro file hfile
    obtain ⟨path, hpath, rfl⟩ := List.mem_map.1 (hsorted.mem_iff.1 hfile)
    exact ⟨hpath, rfl⟩
  have hle : ∀ path ∈ files, weight path ≤ W := fun path hpath =>
    (foldr_max_le_iff (foldr_max_nonneg _)).1 hW.ge _ (List.mem_map_of_mem hpath)
  have hpacked : Packed Prod.snd W total order (packInto Prod.snd total order) := by
    refine packed_packInto (by omega) (fun file hfile => ?_) (fun file hfile => ?_) (foldr_max_nonneg _)
    · rw [(hentry file hfile).2]
      exact (hweight _ (hentry file hfile).1).2
    · rw [(hentry file hfile).2]
      exact hle _ (hentry file hfile).1
  rcases hpack : packInto Prod.snd total order with ⟨bins, load⟩
  rw [hpack] at hpacked
  obtain ⟨hlength, hload, hitems, hbalanced⟩ := hpacked
  have hflat : (bins.map laneOf).flatten.Perm files := by
    refine (flatten_laneOf_perm bins).trans ?_
    have hperm := (hitems.trans hsorted).map Prod.fst
    rwa [hfst] at hperm
  refine ⟨bins.map laneOf, by rw [List.length_map, hlength], fun i hi => ?_, ?_, hflat, ?_⟩
  · have hperm := hinput i hi
    have hagree : heaviestFirst ((input i).map fun path => (path, weight path)) = order :=
      heaviestFirst_perm (hperm.map _) (by rw [hfst]; exact hperm.nodup_iff.2 hfiles)
    rw [shard, if_neg (by omega), if_neg (by omega), weighed_eq_ok fun path hpath => (hweight path (hperm.mem_iff.1 hpath)).1]
    have hlane : (bins.map laneOf).getD i [] = laneOf (bins.getD i []) := by
      rw [List.getD_eq_getElem _ _ (by rwa [List.length_map, hlength]), List.getElem_map,
        List.getD_eq_getElem _ _ (by rwa [hlength])]
    rw [hlane, laneOf, ← show (packInto Prod.snd total order).1 = bins by rw [hpack], ← hagree]
    rfl
  · exact (List.nodup_flatten.1 (hflat.nodup_iff.2 hfiles)).2
  · intro lane hlane other hother
    obtain ⟨bin, hbin, rfl⟩ := List.mem_map.1 hlane
    obtain ⟨bin', hbin', rfl⟩ := List.mem_map.1 hother
    have hweights : ∀ bin ∈ bins, ∀ file ∈ bin, file.2 = weight file.1 := fun bin hbin file hfile =>
      (hentry file (hitems.mem_iff.1 (List.mem_flatten.2 ⟨bin, hbin, hfile⟩))).2
    rw [sum_laneOf (hweights bin hbin), sum_laneOf (hweights bin' hbin'), sub_le_iff_le_add']
    exact hbalanced _ (hload ▸ List.mem_map_of_mem hbin) _ (hload ▸ List.mem_map_of_mem hbin')

theorem shard_two_files :
    let checkout : Checkout := ⟨⟨"/repo"⟩, Dict.empty.set "a/test_x.py" 3, fun _ => true, fun _ => 2⟩
    let files : List Path := [⟨"a/test_x.py"⟩, ⟨"b/test_y.py"⟩]
    ∃ shards : List (List Path), shards.length = 2 ∧ (∀ i : ℕ, i < 2 →
        shard checkout (if i = 0 then files else files.reverse) i (2 : ℕ) = .ok (shards.getD i [])) ∧
      shards.Pairwise List.Disjoint ∧ shards.flatten.Perm files ∧
      ∀ lane ∈ shards, ∀ other ∈ shards,
        (lane.map fun _ => (3 : ℚ)).sum - (other.map fun _ => (3 : ℚ)).sum ≤ (files.map fun _ => (3 : ℚ)).foldr max 0 := by
  intro checkout files
  refine @shard_partitions checkout files (fun _ => 3) (by decide) (fun path hpath => ⟨?_, by decide⟩) 2 (by decide) _
    fun i _ => ?_
  · obtain rfl | rfl : path = ⟨"a/test_x.py"⟩ ∨ path = ⟨"b/test_y.py"⟩ := by simpa [files] using hpath
    · decide +kernel
    · decide +kernel
  · split
    · exact List.Perm.refl _
    · exact List.reverse_perm _

end TrueAlpha.Runtime
