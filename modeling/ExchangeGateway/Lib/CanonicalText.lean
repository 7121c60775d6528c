import ExchangeGateway.Lib.KeyedList
import Mathlib.Data.List.Sort
import Mathlib.Data.List.Basic
import Mathlib.Data.String.Basic

/-! The canonical text of a keyed list: its pairs in the order of their keys, joined by delimiters.
It tells two lists apart if and only if they differ, unless a delimiter occurs in a pair. -/
namespace KeyedList

section Sorted

variable {α κ : Type*} {key : α → κ} [LinearOrder κ]

instance : Std.Total fun a b : α => key a ≤ key b := ⟨fun a b => le_total (key a) (key b)⟩

instance : IsTrans α fun a b => key a ≤ key b := ⟨fun _ _ _ => le_trans⟩

def sorted (m : KeyedList key) : List α := m.toList.insertionSort (key · ≤ key ·)

theorem sorted_perm (m : KeyedList key) : m.sorted.Perm m.toList := List.perm_insertionSort _ _

theorem sorted_lt (m : KeyedList key) : (m.sorted.map key).Pairwise (· < ·) := by
  have hle : (m.sorted.map key).Pairwise (· ≤ ·) :=
    List.pairwise_map.mpr (List.pairwise_insertionSort _ _)
  have hnodup : (m.sorted.map key).Nodup := (m.sorted_perm.map key).nodup_iff.mpr m.nodup
  exact (hle.and hnodup).imp fun h => lt_of_le_of_ne h.1 h.2

omit [LinearOrder κ] in
theorem nodup_toList (m : KeyedList key) : m.toList.Nodup := m.nodup.of_map

/-- The order of two elements of one keyed list is strict. -/
theorem eq_of_key_eq {m : KeyedList key} {a b : α} (ha : a ∈ m.toList) (hb : b ∈ m.toList)
    (h : key a = key b) : a = b := by
  have hfind := find?_of_mem_toList ha
  rw [h, find?_of_mem_toList hb] at hfind
  exact (Option.some.inj hfind).symm

theorem perm_of_find? {m n : KeyedList key} (h : ∀ k, m.find? k = n.find? k) :
    m.toList.Perm n.toList := by
  apply (List.perm_ext_iff_of_nodup m.nodup_toList n.nodup_toList).mpr
  intro a
  constructor
  · intro ha
    have hfind := find?_of_mem_toList ha
    rw [h] at hfind
    exact mem_toList_of_find? hfind
  · intro ha
    have hfind := find?_of_mem_toList ha
    rw [← h] at hfind
    exact mem_toList_of_find? hfind

theorem sorted_eq_iff {m n : KeyedList key} : m.sorted = n.sorted ↔ ∀ k, m.find? k = n.find? k := by
  constructor
  · intro h k
    apply find?_of_perm
    have hm := m.sorted_perm
    rw [h] at hm
    exact hm.symm.trans n.sorted_perm
  · intro h
    have hperm := perm_of_find? h
    have hsorted : m.sorted.Perm n.sorted := m.sorted_perm.trans (hperm.trans n.sorted_perm.symm)
    apply hsorted.eq_of_pairwise _ (List.pairwise_insertionSort _ _) (List.pairwise_insertionSort _ _)
    intro a b ha hb hle hge
    exact eq_of_key_eq (m.sorted_perm.mem_iff.mp ha)
      (hperm.mem_iff.mpr (n.sorted_perm.mem_iff.mp hb)) (le_antisymm hle hge)

end Sorted

/-! ### Delimited text -/

/-- One pair, with the character between its name and its value. -/
def pairText (equals : Char) (pair : String × String) : List Char :=
  pair.1.toList ++ equals :: pair.2.toList

def joined (separator equals : Char) (pairs : List (String × String)) : List Char :=
  [separator].intercalate (pairs.map (pairText equals))

/-- No delimiter occurs where it would be read as one. -/
def Delimited (separator equals : Char) (pairs : List (String × String)) : Prop :=
  ∀ pair ∈ pairs, separator ∉ pairText equals pair ∧ equals ∉ pair.1.toList

variable {separator equals : Char}

theorem pairText_inj {p q : String × String} (hp : equals ∉ p.1.toList) (hq : equals ∉ q.1.toList)
    (h : pairText equals p = pairText equals q) : p = q := by
  have hname : ∀ name rest : List Char, equals ∉ name →
      (name ++ equals :: rest).takeWhile (· ≠ equals) = name ∧
        (name ++ equals :: rest).dropWhile (· ≠ equals) = equals :: rest := by
    intro name rest hmem
    have hall : ∀ c ∈ name, decide (c ≠ equals) = true := by
      intro c hc
      have hne : c ≠ equals := fun he => hmem (he ▸ hc)
      simpa using hne
    rw [List.takeWhile_append_of_pos hall, List.dropWhile_append_of_pos hall]
    simp
  have hpname := hname _ p.2.toList hp
  have hqname := hname _ q.2.toList hq
  unfold pairText at h
  rw [h] at hpname
  have hfirst : p.1 = q.1 := String.toList_inj.mp (hpname.1.symm.trans hqname.1)
  have hsecond := List.cons.inj (hpname.2.symm.trans hqname.2)
  exact Prod.ext hfirst (String.toList_inj.mp hsecond.2)

theorem map_pairText_inj {pairs pairs' : List (String × String)}
    (h : Delimited separator equals pairs) (h' : Delimited separator equals pairs')
    (heq : pairs.map (pairText equals) = pairs'.map (pairText equals)) : pairs = pairs' := by
  induction pairs generalizing pairs' with
  | nil =>
    cases pairs' with
    | nil => rfl
    | cons p rest => cases heq
  | cons p rest ih =>
    cases pairs' with
    | nil => cases heq
    | cons q rest' =>
      obtain ⟨hhead, htail⟩ := List.cons.inj heq
      have hp := (h p List.mem_cons_self).2
      have hq := (h' q List.mem_cons_self).2
      rw [pairText_inj hp hq hhead]
      rw [ih (fun r hr => h r (List.mem_cons_of_mem _ hr))
        (fun r hr => h' r (List.mem_cons_of_mem _ hr)) htail]

/-- A text with a pair in it is not empty. -/
theorem joined_ne_nil {pairs : List (String × String)} (h : pairs ≠ []) :
    joined separator equals pairs ≠ [] := by
  cases pairs with
  | nil => exact absurd rfl h
  | cons p rest =>
    cases rest with
    | nil => simp [joined, pairText]
    | cons q rest => simp [joined, pairText, List.intercalate]

theorem joined_inj {pairs pairs' : List (String × String)}
    (h : Delimited separator equals pairs) (h' : Delimited separator equals pairs')
    (heq : joined separator equals pairs = joined separator equals pairs') : pairs = pairs' := by
  by_cases hnil : pairs = []
  · by_contra hne
    subst hnil
    exact joined_ne_nil (Ne.symm hne) heq.symm
  · by_cases hnil' : pairs' = []
    · subst hnil'
      exact absurd heq (joined_ne_nil hnil)
    · have hsplit : ∀ pairs, pairs ≠ [] → Delimited separator equals pairs →
          (joined separator equals pairs).splitOn separator = pairs.map (pairText equals) := by
        intro pairs hne hpairs
        apply List.splitOn_intercalate
        · intro text htext
          obtain ⟨p, hp, rfl⟩ := List.mem_map.mp htext
          exact (hpairs p hp).1
        · simpa using hne
      have hparts := congrArg (List.splitOn separator) heq
      rw [hsplit pairs hnil h, hsplit pairs' hnil' h'] at hparts
      exact map_pairText_inj h h' hparts

def canonicalText (separator equals : Char)
    (m : KeyedList (Prod.fst : String × String → String)) : List Char :=
  joined separator equals m.sorted

theorem canonicalText_eq_iff {m n : KeyedList (Prod.fst : String × String → String)}
    (hm : Delimited separator equals m.toList) (hn : Delimited separator equals n.toList) :
    canonicalText separator equals m = canonicalText separator equals n ↔
      ∀ k, m.find? k = n.find? k := by
  rw [← sorted_eq_iff]
  constructor
  · apply joined_inj
    · intro p hp
      exact hm p (m.sorted_perm.mem_iff.mp hp)
    · intro p hp
      exact hn p (n.sorted_perm.mem_iff.mp hp)
  · exact congrArg (joined separator equals)

end KeyedList
