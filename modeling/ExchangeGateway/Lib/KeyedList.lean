import Mathlib.Algebra.BigOperators.Group.List.Basic
import Mathlib.Data.List.Nodup
import Mathlib.Tactic.Abel
import Mathlib.Tactic.Common

/-! Finite maps whose values carry their own key: a list without two elements of one
key. The list order is the iteration order, which an update in place keeps. -/

/-- A list whose elements have pairwise distinct keys. -/
structure KeyedList {α κ : Type*} (key : α → κ) where
  toList : List α
  nodup : (toList.map key).Nodup

namespace KeyedList

variable {α κ : Type*} {key : α → κ}

@[ext] theorem ext {m n : KeyedList key} (h : m.toList = n.toList) : m = n := by
  cases m; cases n; cases h; rfl

instance [DecidableEq α] : DecidableEq (KeyedList key) := fun m n =>
  decidable_of_iff (m.toList = n.toList) ⟨ext, fun h => h ▸ rfl⟩

def empty (key : α → κ) : KeyedList key := ⟨[], List.nodup_nil⟩

variable [DecidableEq κ]

private def replaceOrAppend (key : α → κ) (a : α) : List α → List α
  | [] => [a]
  | b :: l => if key b = key a then a :: l else b :: replaceOrAppend key a l

private theorem map_replaceOrAppend (a : α) (l : List α) :
    (replaceOrAppend key a l).map key =
      if key a ∈ l.map key then l.map key else l.map key ++ [key a] := by
  induction l with
  | nil => simp [replaceOrAppend]
  | cons b l ih =>
    by_cases hb : key b = key a
    · simp [replaceOrAppend, hb]
    · simp only [replaceOrAppend, hb, if_false, List.map_cons, ih, List.mem_cons, Ne.symm hb,
        false_or]
      split_ifs <;> simp

def find? (m : KeyedList key) (k : κ) : Option α := m.toList.find? (key · = k)

/-- Store `a` under its key: in place when the key is taken, at the end when it is new. -/
def set (m : KeyedList key) (a : α) : KeyedList key where
  toList := replaceOrAppend key a m.toList
  nodup := by
    rw [map_replaceOrAppend]
    split_ifs with h
    · exact m.nodup
    · exact List.nodup_append.mpr ⟨m.nodup, by simp, by simpa using h⟩

def erase (m : KeyedList key) (k : κ) : KeyedList key where
  toList := m.toList.filter (key · ≠ k)
  nodup := m.nodup.sublist (List.filter_sublist.map key)

instance : Membership κ (KeyedList key) := ⟨fun m k => (m.find? k).isSome⟩

instance (m : KeyedList key) (k : κ) : Decidable (k ∈ m) :=
  inferInstanceAs (Decidable ((m.find? k).isSome = true))

theorem mem_iff {m : KeyedList key} {k : κ} : k ∈ m ↔ ∃ a, m.find? k = some a :=
  Option.isSome_iff_exists

theorem not_mem_iff {m : KeyedList key} {k : κ} : k ∉ m ↔ m.find? k = none :=
  Option.not_isSome_iff_eq_none

theorem mem_of_find? {m : KeyedList key} {k : κ} {a : α} (h : m.find? k = some a) : k ∈ m :=
  mem_iff.mpr ⟨a, h⟩

theorem key_of_find? {m : KeyedList key} {k : κ} {a : α} (h : m.find? k = some a) :
    key a = k := by
  simpa using List.find?_some h

theorem mem_toList_of_find? {m : KeyedList key} {k : κ} {a : α} (h : m.find? k = some a) :
    a ∈ m.toList := List.mem_of_find?_eq_some h

theorem find?_of_mem_toList {m : KeyedList key} {a : α} (h : a ∈ m.toList) :
    m.find? (key a) = some a := by
  cases hb : m.find? (key a) with
  | none => simpa using List.find?_eq_none.mp hb a h
  | some b =>
    have hab := List.inj_on_of_nodup_map m.nodup (mem_toList_of_find? hb) h (key_of_find? hb)
    rw [hab]

@[simp] theorem find?_empty (k : κ) : (empty key).find? k = none := rfl

@[simp] theorem not_mem_empty (k : κ) : k ∉ empty key := not_mem_iff.mpr rfl

@[simp] theorem find?_set_self (m : KeyedList key) (a : α) :
    (m.set a).find? (key a) = some a := by
  refine find?_of_mem_toList (m := m.set a) ?_
  show a ∈ replaceOrAppend key a m.toList
  induction m.toList with
  | nil => simp [replaceOrAppend]
  | cons b l ih =>
    simp only [replaceOrAppend]
    split_ifs
    · exact List.mem_cons_self
    · exact List.mem_cons_of_mem b ih

theorem find?_set_of_ne (m : KeyedList key) {a : α} {k : κ} (h : key a ≠ k) :
    (m.set a).find? k = m.find? k := by
  show (replaceOrAppend key a m.toList).find? _ = m.toList.find? _
  induction m.toList with
  | nil => simp [replaceOrAppend, h]
  | cons b l ih =>
    simp only [replaceOrAppend]
    split_ifs with hb
    · have hk : key b ≠ k := fun e => h (hb.symm.trans e)
      simp [h, hk]
    · by_cases hk : key b = k <;> simp [hk, ih]

theorem find?_set (m : KeyedList key) (a : α) (k : κ) :
    (m.set a).find? k = if key a = k then some a else m.find? k := by
  split_ifs with h
  · rw [← h, find?_set_self]
  · exact find?_set_of_ne m h

@[simp] theorem mem_set {m : KeyedList key} {a : α} {k : κ} :
    k ∈ m.set a ↔ key a = k ∨ k ∈ m := by
  show ((m.set a).find? k).isSome ↔ _ ∨ (m.find? k).isSome
  rw [find?_set]
  split_ifs with h <;> simp [h]

@[simp] theorem find?_erase_self (m : KeyedList key) (k : κ) : (m.erase k).find? k = none := by
  simp [find?, erase]

theorem find?_erase_of_ne (m : KeyedList key) {k k' : κ} (h : k' ≠ k) :
    (m.erase k).find? k' = m.find? k' := by
  simp only [find?, erase, List.find?_filter]
  congr 1
  funext a
  by_cases ha : key a = k' <;> simp [ha, h]

@[simp] theorem mem_erase {m : KeyedList key} {k k' : κ} :
    k' ∈ m.erase k ↔ k' ≠ k ∧ k' ∈ m := by
  show ((m.erase k).find? k').isSome ↔ _ ∧ (m.find? k').isSome
  by_cases h : k' = k
  · simp [h]
  · simp [h, find?_erase_of_ne m h]

theorem erase_of_not_mem {m : KeyedList key} {k : κ} (h : k ∉ m) : m.erase k = m := by
  ext1
  have hk : ∀ a ∈ m.toList, key a ≠ k := by simpa [find?] using not_mem_iff.mp h
  exact List.filter_eq_self.mpr fun a ha => decide_eq_true (hk a ha)

/-- Lookup does not depend on the iteration order. -/
theorem find?_of_perm {m n : KeyedList key} (h : m.toList.Perm n.toList) (k : κ) :
    m.find? k = n.find? k := by
  cases hn : n.find? k with
  | none =>
    rw [find?, List.find?_eq_none] at hn ⊢
    exact fun a ha => hn a (h.mem_iff.mp ha)
  | some a =>
    rw [← key_of_find? hn]
    exact find?_of_mem_toList (h.mem_iff.mpr (mem_toList_of_find? hn))

theorem set_set (m : KeyedList key) {a b : α} (h : key a = key b) :
    (m.set a).set b = m.set b := by
  ext1
  show replaceOrAppend key b (replaceOrAppend key a m.toList) = replaceOrAppend key b m.toList
  induction m.toList with
  | nil => simp [replaceOrAppend, h]
  | cons c l ih =>
    by_cases hc : key c = key b
    · simp [replaceOrAppend, hc, h]
    · simp [replaceOrAppend, hc, h, ih]

theorem set_of_find? {m : KeyedList key} {a : α} (h : m.find? (key a) = some a) : m.set a = m := by
  have hlist (l : List α) (hl : l.find? (key · = key a) = some a) : replaceOrAppend key a l = l := by
    induction l with
    | nil => cases hl
    | cons b l ih =>
      by_cases hb : key b = key a
      · have hba : b = a := by simpa [hb] using hl
        simp [replaceOrAppend, hba]
      · have hrest : l.find? (key · = key a) = some a := by simpa [hb] using hl
        simp [replaceOrAppend, hb, ih hrest]
  ext1
  exact hlist m.toList h

section Sum

variable {M : Type*} [AddCommMonoid M]

def sum (m : KeyedList key) (f : α → M) : M := (m.toList.map f).sum

theorem sum_set_new (m : KeyedList key) (f : α → M) {a : α} (h : m.find? (key a) = none) :
    (m.set a).sum f = m.sum f + f a := by
  have hn : ∀ b ∈ m.toList, key b ≠ key a := by simpa [find?] using h
  show ((replaceOrAppend key a m.toList).map f).sum = (m.toList.map f).sum + f a
  generalize m.toList = l at hn
  induction l with
  | nil => simp [replaceOrAppend]
  | cons b l ih =>
    have hl := ih fun c hc => hn c (List.mem_cons_of_mem b hc)
    simp only [replaceOrAppend, hn b List.mem_cons_self, if_false, List.map_cons, List.sum_cons,
      hl, add_assoc]

theorem sum_set_old (m : KeyedList key) (f : α → M) {a b : α} (h : m.find? (key a) = some b) :
    (m.set a).sum f + f b = m.sum f + f a := by
  have hm := mem_toList_of_find? h
  have hk := key_of_find? h
  have hn := m.nodup
  show ((replaceOrAppend key a m.toList).map f).sum + f b = (m.toList.map f).sum + f a
  generalize m.toList = l at hm hn
  induction l with
  | nil => cases hm
  | cons c l ih =>
    obtain ⟨hcl, hn⟩ := List.nodup_cons.mp hn
    simp only [replaceOrAppend]
    split_ifs with hc
    · rcases List.mem_cons.mp hm with rfl | hm
      · simp only [List.map_cons, List.sum_cons]
        abel
      · exact absurd (List.mem_map.mpr ⟨b, hm, hk.trans hc.symm⟩) hcl
    · rcases List.mem_cons.mp hm with rfl | hm
      · exact absurd hk hc
      · simp only [List.map_cons, List.sum_cons, add_assoc, ih hm hn]

theorem sum_erase (m : KeyedList key) (f : α → M) {k : κ} {a : α} (h : m.find? k = some a) :
    (m.erase k).sum f + f a = m.sum f := by
  have hm := mem_toList_of_find? h
  have hk := key_of_find? h
  have hn := m.nodup
  change ((m.toList.filter (key · ≠ k)).map f).sum + f a = (m.toList.map f).sum
  generalize m.toList = l at hm hn
  induction l with
  | nil => cases hm
  | cons b l ih =>
    obtain ⟨hbl, hn⟩ := List.nodup_cons.mp hn
    rcases List.mem_cons.mp hm with rfl | hm
    · have hrest : l.filter (key · ≠ k) = l := by
        rw [List.filter_eq_self]
        intro c hc
        have hne : key c ≠ key a := fun he => hbl (List.mem_map.mpr ⟨c, hc, he⟩)
        simpa [← hk] using hne
      rw [List.filter_cons_of_neg (by simp [hk]), hrest, List.map_cons, List.sum_cons, add_comm]
    · have hb : key b ≠ k := fun he => hbl (List.mem_map.mpr ⟨a, hm, hk.trans he.symm⟩)
      rw [List.filter_cons_of_pos (by simpa using hb)]
      simp only [List.map_cons, List.sum_cons, add_assoc, ih hm hn]

theorem sum_update (m : KeyedList key) {f g : α → M} {k : κ} {a : α} (h : m.find? k = some a)
    (hfg : ∀ b ∈ m.toList, key b ≠ k → f b = g b) : m.sum f + g a = m.sum g + f a := by
  have hrest : (m.erase k).sum f = (m.erase k).sum g := by
    refine congrArg List.sum (List.map_congr_left fun b hb => ?_)
    obtain ⟨hb, hne⟩ := List.mem_filter.mp hb
    exact hfg b hb (by simpa using hne)
  rw [← m.sum_erase f h, ← m.sum_erase g h, hrest]
  abel

omit [DecidableEq κ] in
theorem sum_congr (m : KeyedList key) {f g : α → M} (h : ∀ a ∈ m.toList, f a = g a) :
    m.sum f = m.sum g := congrArg List.sum (List.map_congr_left h)

omit [DecidableEq κ] in
theorem sum_congr_of_perm {m n : KeyedList key} (h : m.toList.Perm n.toList) (f : α → M) :
    m.sum f = n.sum f := (h.map f).sum_eq

end Sum

end KeyedList
