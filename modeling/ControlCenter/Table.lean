import Mathlib.Data.List.Nodup

/-! Tables of rows with a primary key. Rows are inserted at the end, changed in place
and never removed; no two rows share a key. -/
namespace ControlCenter.Table

class Keyed (ρ : Type) (κ : outParam Type) where
  key : ρ → κ

structure Rows (ρ : Type) {κ : Type} [Keyed ρ κ] where
  rows : List ρ
  distinct : (rows.map Keyed.key).Nodup

variable {ρ κ : Type} [Keyed ρ κ]
open Keyed

namespace Rows

def empty : Rows ρ := ⟨[],.nil⟩

instance : Membership ρ (Rows ρ) := ⟨fun t r => r ∈ t.rows⟩

theorem ext {t u : Rows ρ} (h : t.rows = u.rows) : t = u := by
  cases t
  cases u
  cases h
  rfl

def update (test : ρ → Bool) (f : ρ → ρ) (same : ∀ r, key (f r) = key r) (t : Rows ρ) :
    Rows ρ where
  rows := t.rows.map fun r => if test r then f r else r
  distinct := by
    have keys : (t.rows.map fun r => if test r then f r else r).map (key (ρ := ρ)) =
        t.rows.map key := by
      rw [List.map_map]
      apply List.map_congr_left
      intro r _
      simp only [Function.comp_apply]
      split
      · exact same r
      · rfl
    rw [keys]
    exact t.distinct

variable [DecidableEq κ]

def get (k : κ) (t : Rows ρ) : Option ρ := t.rows.find? fun r => decide (key r = k)

-- INSERT: refused when the key is taken.
def insert (row : ρ) (t : Rows ρ) : Option (Rows ρ) :=
  if fresh : key row ∈ t.rows.map key then none
  else some ⟨t.rows ++ [row],by
    rw [List.map_append]
    exact t.distinct.append (by simp) (by simpa [List.disjoint_singleton] using fresh)⟩

end Rows

section
variable {t u : Rows ρ} {r row : ρ}

theorem keyUnique {r' : ρ} (h : r ∈ t) (h' : r' ∈ t) (same : key r = key r') : r = r' :=
  List.inj_on_of_nodup_map t.distinct h h' same

theorem memEmpty : ¬r ∈ (Rows.empty : Rows ρ) := List.not_mem_nil

theorem memUpdate {test : ρ → Bool} {f : ρ → ρ} {same : ∀ r, key (f r) = key r} :
    r ∈ t.update test f same ↔ ∃ r₀ ∈ t, (if test r₀ then f r₀ else r₀) = r := List.mem_map

theorem updateCongr {test test' : ρ → Bool} {f : ρ → ρ} (same : ∀ r, key (f r) = key r)
    (each : ∀ r ∈ t, test r = test' r) : t.update test f same = t.update test' f same := by
  apply Rows.ext
  refine List.map_congr_left fun r listed => ?_
  rw [each r listed]

theorem filterKeyed {test : ρ → Bool} (listed : r ∈ t)
    (each : ∀ r' ∈ t, test r' = true ↔ key r' = key r) : t.rows.filter test = [r] := by
  have alone (front back : List ρ) (split : t.rows = front ++ r::back) :
      t.rows.filter test = [r] := by
    have distinct := t.distinct
    have each (r' : ρ) (inside : r' ∈ front ++ r::back) := each r' (by
      show r' ∈ t.rows
      rw [split]
      exact inside)
    rw [split,List.map_append,List.map_cons,List.nodup_append,List.nodup_cons] at distinct
    obtain ⟨_,⟨later,_⟩,apart⟩ := distinct
    have none_ {rows : List ρ} (fails : ∀ r' ∈ rows, test r' = false) : rows.filter test = [] :=
      List.filter_eq_nil_iff.mpr fun r' inside => by simp [fails r' inside]
    have front_ : front.filter test = [] := none_ fun r' inside => by
      refine Bool.eq_false_iff.mpr fun passes => ?_
      have same := (each r' (List.mem_append_left _ inside)).mp passes
      exact apart _ (List.mem_map_of_mem inside) _ List.mem_cons_self same
    have back_ : back.filter test = [] := none_ fun r' inside => by
      refine Bool.eq_false_iff.mpr fun passes => ?_
      have same := (each r' (List.mem_append_right _ (List.mem_cons_of_mem _ inside))).mp passes
      exact later (same ▸ List.mem_map_of_mem inside)
    have own := (each r (List.mem_append_right _ List.mem_cons_self)).mpr rfl
    rw [split,List.filter_append,List.filter_cons,if_pos own,front_,back_]
    rfl
  obtain ⟨front,back,split⟩ := List.append_of_mem (show r ∈ t.rows from listed)
  exact alone front back split

variable [DecidableEq κ] {k : κ}

theorem getSome : t.get k = some r ↔ r ∈ t ∧ key r = k := by
  constructor
  · intro found
    have keyed := List.find?_some found
    exact ⟨List.mem_of_find?_eq_some found,of_decide_eq_true keyed⟩
  · rintro ⟨listed,rfl⟩
    cases found : t.get (key r) with
    | none =>
      have none := List.find?_eq_none.mp found r listed
      simp at none
    | some other =>
      have keyed := List.find?_some (p := fun r' => decide (key r' = key r)) found
      rw [keyUnique (List.mem_of_find?_eq_some found) listed (of_decide_eq_true keyed)]

theorem getMem (h : r ∈ t) : t.get (key r) = some r := getSome.mpr ⟨h,rfl⟩

theorem getNone : t.get k = none ↔ ∀ r ∈ t, key r ≠ k := by
  unfold Rows.get
  simp only [List.find?_eq_none,decide_eq_true_eq]
  rfl

theorem keyHeld : (t.get k).isSome = true ↔ k ∈ t.rows.map key := by
  constructor
  · intro held
    obtain ⟨r,found⟩ := Option.isSome_iff_exists.mp held
    obtain ⟨listed,rfl⟩ := getSome.mp found
    exact List.mem_map_of_mem listed
  · intro listed
    obtain ⟨r,member,rfl⟩ := List.mem_map.mp listed
    rw [getMem member]
    rfl

theorem insertFresh (row : ρ) (fresh : t.get (key row) = none) :
    ∃ u, t.insert row = some u := by
  cases inserted : t.insert row with
  | some u => exact ⟨u,rfl⟩
  | none =>
    unfold Rows.insert at inserted
    split at inserted
    · rename_i taken
      have held := keyHeld.mpr taken
      rw [fresh] at held
      cases held
    · cases inserted

theorem insertSome (h : t.insert row = some u) :
    (∀ r ∈ t, key r ≠ key row) ∧ ∀ r, r ∈ u ↔ r ∈ t ∨ r = row := by
  unfold Rows.insert at h
  split at h
  · contradiction
  · rename_i fresh
    cases Option.some.inj h
    refine ⟨fun r listed same => fresh ?_,fun r => ?_⟩
    · rw [← same]
      exact List.mem_map_of_mem listed
    · exact List.mem_append.trans (by rw [List.mem_singleton]; rfl)

theorem insertRows (h : t.insert row = some u) : u.rows = t.rows ++ [row] := by
  unfold Rows.insert at h
  split at h
  · contradiction
  · cases Option.some.inj h
    rfl

theorem getUpdate {test : ρ → Bool} {f : ρ → ρ} {same : ∀ r, key (f r) = key r} :
    (t.update test f same).get k = (t.get k).map fun r => if test r then f r else r := by
  cases found : t.get k with
  | none =>
    rw [Option.map_none,getNone]
    intro r listed
    obtain ⟨r₀,h₀,rfl⟩ := memUpdate.mp listed
    have other := getNone.mp found r₀ h₀
    split
    · rwa [same]
    · exact other
  | some r =>
    obtain ⟨listed,keyed⟩ := getSome.mp found
    rw [Option.map_some,getSome]
    refine ⟨memUpdate.mpr ⟨r,listed,rfl⟩,?_⟩
    split
    · rwa [same]
    · exact keyed

theorem getInsert (h : t.insert row = some u) :
    u.get k = if key row = k then some row else t.get k := by
  obtain ⟨fresh,listed⟩ := insertSome h
  split
  · rename_i keyed
    exact getSome.mpr ⟨(listed row).mpr (.inr rfl),keyed⟩
  · rename_i other
    cases found : t.get k with
    | none =>
      rw [getNone]
      intro r hr
      rcases (listed r).mp hr with old | rfl
      · exact getNone.mp found r old
      · exact other
    | some r =>
      obtain ⟨old,keyed⟩ := getSome.mp found
      exact getSome.mpr ⟨(listed r).mpr (.inl old),keyed⟩

end

end ControlCenter.Table
