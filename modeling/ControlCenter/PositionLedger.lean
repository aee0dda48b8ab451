import Mathlib.Data.List.Sort
import Mathlib.Data.List.Nodup

/-! Positions handed out in order. Each one above the floor is live or reported in a
range as given up; a bounded ledger gives up its oldest loose entries first. -/
namespace ControlCenter.PositionLedger

class Positioned (ε : Type) where
  position : ε → Nat
  kept : ε → Bool

export Positioned (position kept)

structure Ledger (ε : Type) where
  top : Nat
  floor : Nat
  live : List ε
  gone : List (Nat × Nat)
  deriving Repr

inductive Write (ε : Type) where
  | append (e : ε)
  | raise (floor : Nat)
  | prune (floor : Nat)
  | forget (p : Nat)
  | record (range : Nat × Nat)
  | other

def inRange (c : Nat) (r : Nat × Nat) : Bool := decide (r.1 ≤ c) && decide (c ≤ r.2)

variable {ε : Type} [Positioned ε]

def Write.apply (L : Ledger ε) : Write ε → Ledger ε
  | .append e => {L with top := position e,live := L.live ++ [e]}
  | .raise floor => {L with floor}
  | .prune floor => {L with live := L.live.filter fun e => decide (floor < position e)}
  | .forget p => {L with live := L.live.filter fun e => position e != p}
  | .record range => {L with gone := L.gone ++ [range]}
  | .other => L

def applyAll (L : Ledger ε) (ws : List (Write ε)) : Ledger ε := ws.foldl Write.apply L

namespace Ledger

def positions (L : Ledger ε) : List Nat := L.live.map position

def accounts (L : Ledger ε) (c : Nat) : Nat := L.positions.count c + L.gone.countP (inRange c)

def Covered (L : Ledger ε) : Prop := ∀ c, L.floor < c → c ≤ L.top → 1 ≤ L.accounts c

structure Ordered (L : Ledger ε) : Prop where
  ascending : L.positions.Pairwise (· < ·)
  below : ∀ p ∈ L.positions, p ≤ L.top

structure Sound (L : Ledger ε) : Prop extends Ordered L where
  goneBelow : ∀ r ∈ L.gone, r.2 ≤ L.top
  once : ∀ c, L.floor < c → c ≤ L.top → L.accounts c = 1

theorem Sound.covered {L : Ledger ε} (sound : L.Sound) : L.Covered := fun c low high => by
  rw [sound.once c low high]

theorem Ordered.nodup {L : Ledger ε} (ordered : L.Ordered) : L.positions.Nodup :=
  ordered.ascending.imp Nat.ne_of_lt

def unsettled (L : Ledger ε) : List ε := L.live.filter fun e => decide (L.floor < position e)

def loose (L : Ledger ε) : List ε := L.unsettled.filter fun e => !kept e

def victims (bound : Nat) (L : Ledger ε) : List Nat :=
  (L.loose.take (L.unsettled.length - bound)).map position

def Bounded (bound : Nat) (L : Ledger ε) : Prop :=
  L.unsettled.length ≤ bound ∨ ∀ e ∈ L.unsettled, kept e = true

def forget (L : Ledger ε) (ps : List Nat) : Ledger ε :=
  {L with live := L.live.filter fun e => decide (position e ∉ ps)}

def record (L : Ledger ε) (rs : List (Nat × Nat)) : Ledger ε := {L with gone := L.gone ++ rs}

end Ledger

@[simp] theorem applyNil (L : Ledger ε) : applyAll L [] = L := rfl

@[simp] theorem applyCons (L : Ledger ε) (w : Write ε) (ws : List (Write ε)) :
    applyAll L (w::ws) = applyAll (w.apply L) ws := rfl

@[simp] theorem applyAppend (L : Ledger ε) (front back : List (Write ε)) :
    applyAll L (front ++ back) = applyAll (applyAll L front) back := List.foldl_append

theorem applyForget (L : Ledger ε) (ps : List Nat) :
    applyAll L (ps.map .forget) = L.forget ps := by
  induction ps generalizing L with
  | nil => simp [Ledger.forget]
  | cons p ps ih =>
    simp only [List.map_cons,applyCons,ih,Write.apply,Ledger.forget,List.filter_filter]
    congr 1
    apply List.filter_congr
    intro e _
    by_cases same : position e = p <;> simp [same]

theorem applyRecord (L : Ledger ε) (rs : List (Nat × Nat)) :
    applyAll L (rs.map .record) = L.record rs := by
  induction rs generalizing L with
  | nil => simp [Ledger.record]
  | cons r rs ih => simp [ih,Write.apply,Ledger.record]

theorem positionsFilter (es : List ε) (p : Nat → Bool) :
    (es.filter fun e => p (position e)).map position = (es.map position).filter p := by
  rw [List.filter_map]
  rfl

theorem victimsSublist (bound : Nat) (L : Ledger ε) : (L.victims bound).Sublist L.positions :=
  ((List.take_sublist _ _).trans
    (List.filter_sublist.trans List.filter_sublist)).map position

theorem victimsAbove {bound : Nat} {L : Ledger ε} {c : Nat} (h : c ∈ L.victims bound) :
    L.floor < c := by
  obtain ⟨e,he,rfl⟩ := List.mem_map.mp h
  have listed := List.mem_of_mem_filter (List.mem_of_mem_take he)
  exact of_decide_eq_true (List.mem_filter.mp listed).2

theorem victimLoose {bound : Nat} {L : Ledger ε} (ordered : L.Ordered) {e : ε} (he : e ∈ L.live)
    (h : position e ∈ L.victims bound) : kept e = false := by
  obtain ⟨v,hv,same⟩ := List.mem_map.mp h
  have listed := List.mem_filter.mp (List.mem_of_mem_take hv)
  have live := List.mem_of_mem_filter listed.1
  have equal : v = e := List.inj_on_of_nodup_map ordered.nodup live he same
  simpa [equal] using listed.2

structure Reports (rs : List (Nat × Nat)) (ps : List Nat) : Prop where
  exact : ∀ c, rs.countP (inRange c) = ps.count c
  proper : ∀ r ∈ rs, r.1 ≤ r.2

theorem reportedHigh {rs ps} (h : Reports rs ps) {r} (hr : r ∈ rs) : r.2 ∈ ps := by
  have proper := h.proper r hr
  have counted : 0 < rs.countP (inRange r.2) :=
    List.countP_pos_iff.mpr ⟨r,hr,by simp [inRange,proper]⟩
  rw [h.exact] at counted
  exact List.count_pos_iff.mp counted

theorem forgetPositions (L : Ledger ε) (ps : List Nat) :
    (L.forget ps).positions = L.positions.filter fun p => decide (p ∉ ps) :=
  positionsFilter L.live fun p => decide (p ∉ ps)

theorem forgetCount (L : Ledger ε) (ps : List Nat) (c : Nat) :
    (L.forget ps).positions.count c = if c ∈ ps then 0 else L.positions.count c := by
  rw [forgetPositions]
  split
  · rename_i inside
    apply List.count_eq_zero.mpr
    simp [inside]
  · rename_i outside
    exact List.count_filter (by simpa using outside)

theorem orderedWrite {L : Ledger ε} (ordered : L.Ordered) {w : Write ε}
    (next : ∀ e, w = .append e → position e = L.top + 1) : (w.apply L).Ordered := by
  have filtered (p : ε → Bool) : (Ledger.mk L.top L.floor (L.live.filter p) L.gone).Ordered := by
    have sub : ((L.live.filter p).map position).Sublist L.positions :=
      List.filter_sublist.map position
    exact ⟨ordered.ascending.sublist sub,fun q hq => ordered.below q (sub.subset hq)⟩
  cases w with
  | append e =>
    have step := next e rfl
    have split : (Write.apply L (.append e)).positions = L.positions ++ [position e] := by
      simp [Ledger.positions,Write.apply]
    refine ⟨?_,?_⟩
    · rw [split,List.pairwise_append]
      refine ⟨ordered.ascending,List.pairwise_singleton _ _,?_⟩
      intro p hp q hq
      have low := ordered.below p hp
      rw [List.mem_singleton.mp hq]
      omega
    · intro p hp
      rw [split,List.mem_append,List.mem_singleton] at hp
      show p ≤ position e
      rcases hp with old | rfl
      · have low := ordered.below p old; omega
      · exact Nat.le_refl _
  | raise floor => exact ⟨ordered.ascending,ordered.below⟩
  | prune floor => exact filtered _
  | forget p => exact filtered _
  | record range => exact ⟨ordered.ascending,ordered.below⟩
  | other => exact ordered

theorem soundAppend {L : Ledger ε} (sound : L.Sound) {e : ε} (next : position e = L.top + 1) :
    (Write.apply L (.append e)).Sound := by
  have split : (Write.apply L (.append e)).positions = L.positions ++ [position e] := by
    simp [Ledger.positions,Write.apply]
  refine ⟨orderedWrite sound.toOrdered fun _ same => by cases same; exact next,?_,?_⟩
  · intro r hr
    have low := sound.goneBelow r hr
    show r.2 ≤ position e
    omega
  · intro c low high
    have bound : c ≤ position e := high
    rw [Ledger.accounts,split,List.count_append]
    by_cases fresh : c = position e
    · have unused : L.positions.count c = 0 :=
        List.count_eq_zero.mpr fun inside => by have := sound.below c inside; omega
      have unreported : L.gone.countP (inRange c) = 0 := by
        apply List.countP_eq_zero.mpr
        intro r hr
        have := sound.goneBelow r hr
        simp [inRange]
        omega
      rw [unused]
      show 0 + [position e].count c + L.gone.countP (inRange c) = 1
      rw [unreported,fresh]
      simp
    · have old : L.accounts c = 1 := sound.once c low (by omega)
      have other : [position e].count c = 0 := by
        simpa [List.count_singleton] using fun h => fresh h.symm
      rw [other]
      exact old

theorem soundSettle {L : Ledger ε} (sound : L.Sound) {floor : Nat} (up : L.floor ≤ floor) :
    (applyAll L [.raise floor,.prune floor]).Sound := by
  have kept : (applyAll L [.raise floor,.prune floor]).positions =
      L.positions.filter fun p => decide (floor < p) :=
    positionsFilter L.live fun p => decide (floor < p)
  have raised := orderedWrite sound.toOrdered (w := .raise floor) (by simp)
  refine ⟨orderedWrite raised (w := .prune floor) (by simp),sound.goneBelow,?_⟩
  · intro c low high
    have above : floor < c := low
    rw [Ledger.accounts,kept,List.count_filter (by simpa using above)]
    exact sound.once c (by omega) high

theorem soundOverflow {L : Ledger ε} (sound : L.Sound) {bound : Nat} {rs : List (Nat × Nat)}
    (reports : Reports rs (L.victims bound)) :
    ((L.forget (L.victims bound)).record rs).Sound := by
  have sub := victimsSublist bound L
  refine ⟨⟨?_,?_⟩,?_,?_⟩
  · have filtered := sound.ascending.filter fun p => decide (p ∉ L.victims bound)
    rwa [← forgetPositions] at filtered
  · intro p hp
    have inside : p ∈ (L.forget (L.victims bound)).positions := hp
    rw [forgetPositions] at inside
    exact sound.below p (List.mem_of_mem_filter inside)
  · intro r hr
    rcases List.mem_append.mp hr with old | new
    · exact sound.goneBelow r old
    · exact sound.below r.2 (sub.subset (reportedHigh reports new))
  · intro c low high
    have before := sound.once c low high
    have parts : ((L.forget (L.victims bound)).record rs).accounts c =
        (L.forget (L.victims bound)).positions.count c +
          (L.gone.countP (inRange c) + (L.victims bound).count c) := by
      simp only [Ledger.accounts,Ledger.record,List.countP_append,reports.exact]
      rfl
    rw [parts,forgetCount]
    unfold Ledger.accounts at before
    by_cases given : c ∈ L.victims bound
    · have once : (L.victims bound).count c = 1 :=
        List.count_eq_one_of_mem (sound.nodup.sublist sub) given
      have live : 0 < L.positions.count c := List.count_pos_iff.mpr (sub.subset given)
      rw [if_pos given,once]
      omega
    · have never : (L.victims bound).count c = 0 := List.count_eq_zero.mpr given
      rw [if_neg given,never]
      exact before

theorem forgetUnsettled (L : Ledger ε) (ps : List Nat) :
    (L.forget ps).unsettled = L.unsettled.filter fun e => decide (position e ∉ ps) := by
  simp only [Ledger.unsettled,Ledger.forget,List.filter_filter]
  apply List.filter_congr
  intro e _
  exact Bool.and_comm _ _

theorem overflowBound {bound : Nat} (L : Ledger ε) :
    (L.forget (L.victims bound)).Bounded bound := by
  rw [Ledger.Bounded,forgetUnsettled]
  by_cases enough : L.unsettled.length - bound ≤ L.loose.length
  · left
    have taken : ((L.loose.take (L.unsettled.length - bound)).filter
        fun e => decide (position e ∈ L.victims bound)) =
        L.loose.take (L.unsettled.length - bound) := by
      apply List.filter_eq_self.mpr
      intro e he
      exact decide_eq_true (List.mem_map_of_mem he)
    have removed := (((List.take_sublist (L.unsettled.length - bound) L.loose).trans
      List.filter_sublist).filter fun e => decide (position e ∈ L.victims bound)).length_le
    rw [taken,List.length_take,Nat.min_eq_left enough] at removed
    have total := L.unsettled.length_eq_length_filter_add
      fun e => decide (position e ∈ L.victims bound)
    simp only [decide_not]
    omega
  · right
    intro e he
    obtain ⟨listed,outside⟩ := List.mem_filter.mp he
    by_contra unkept
    have isLoose : e ∈ L.loose := List.mem_filter.mpr ⟨listed,by simpa using unkept⟩
    have all : L.loose.take (L.unsettled.length - bound) = L.loose :=
      List.take_of_length_le (by omega)
    exact of_decide_eq_true outside (by rw [Ledger.victims,all]; exact List.mem_map_of_mem isLoose)

theorem victimsNone {bound : Nat} {L : Ledger ε} (fits : L.unsettled.length ≤ bound) :
    L.victims bound = [] := by
  simp [Ledger.victims,Nat.sub_eq_zero_of_le fits]

theorem victimsKept {bound : Nat} {L : Ledger ε} (none : L.loose = []) :
    L.victims bound = [] := by
  simp [Ledger.victims,none]

theorem victimsStep {bound : Nat} {L : Ledger ε} (ordered : L.Ordered) {v : ε} {rest : List ε}
    (exceeds : bound < L.unsettled.length) (first : L.loose = v::rest) :
    L.victims bound = position v :: (L.forget [position v]).victims bound := by
  have sub : (L.unsettled.map position).Sublist L.positions := List.filter_sublist.map position
  have distinct := ordered.nodup.sublist sub
  have looseSub : (L.loose.map position).Sublist (L.unsettled.map position) :=
    List.filter_sublist.map position
  have member : position v ∈ L.unsettled.map position :=
    looseSub.subset (by simp [first])
  have shorter : (L.forget [position v]).unsettled.length = L.unsettled.length - 1 := by
    have mapped : (L.forget [position v]).unsettled.map position =
        (L.unsettled.map position).erase (position v) := by
      rw [forgetUnsettled,distinct.erase_eq_filter]
      have filtered := positionsFilter L.unsettled fun p => decide (p ∉ [position v])
      rw [filtered]
      apply List.filter_congr
      intro p _
      by_cases same : p = position v <;> simp [same]
    have lengths := congrArg List.length mapped
    rwa [List.length_map,List.length_erase_of_mem member,List.length_map] at lengths
  have remaining : (L.forget [position v]).loose = rest := by
    have commuted : (L.forget [position v]).loose =
        L.loose.filter fun e => decide (position e ∉ [position v]) := by
      rw [Ledger.loose,forgetUnsettled,Ledger.loose,List.filter_filter,List.filter_filter]
      apply List.filter_congr
      intro e _
      exact Bool.and_comm _ _
    have looseDistinct := distinct.sublist looseSub
    rw [first,List.map_cons,List.nodup_cons] at looseDistinct
    have stays : (rest.filter fun e => decide (position e ∉ [position v])) = rest := by
      apply List.filter_eq_self.mpr
      intro e he
      have differs : position e ≠ position v := fun same =>
        looseDistinct.1 (same ▸ List.mem_map_of_mem he)
      simpa using differs
    rw [commuted,first,List.filter_cons_of_neg (by simp),stays]
  obtain ⟨k,hk⟩ : ∃ k, L.unsettled.length - bound = k + 1 :=
    ⟨L.unsettled.length - bound - 1,by omega⟩
  have fewer : L.unsettled.length - 1 - bound = k := by omega
  simp only [Ledger.victims,first,remaining,shorter,hk,fewer,List.take_succ_cons,List.map_cons]

inductive Calm (L : Ledger ε) : List (Write ε) → Prop
  | quiet : Calm L []
  | aside : Calm L [.other]
  | settle {floor : Nat} (up : L.floor ≤ floor) : Calm L [.raise floor,.prune floor]

inductive Turn (bound : Nat) (L : Ledger ε) : List (Write ε) → Prop
  | calm {ws : List (Write ε)} (h : Calm L ws) : Turn bound L ws
  | emit {e : ε} {rs : List (Nat × Nat)} (next : position e = L.top + 1)
      (reports : Reports rs (((Write.append e).apply L).victims bound)) :
      Turn bound L (.append e ::
        ((((Write.append e).apply L).victims bound).map .forget ++ rs.map .record))

theorem settleUnsettled {L : Ledger ε} {floor : Nat} (up : L.floor ≤ floor) :
    (applyAll L [.raise floor,.prune floor]).unsettled =
      L.unsettled.filter fun e => decide (floor < position e) := by
  simp only [Ledger.unsettled,applyCons,applyNil,Write.apply,List.filter_filter]
  apply List.filter_congr
  intro e _
  by_cases above : floor < position e
  · simp [above,Nat.lt_of_le_of_lt up above]
  · simp [above]

theorem Calm.sound {L : Ledger ε} {ws : List (Write ε)} (calm : Calm L ws) (sound : L.Sound) :
    (applyAll L ws).Sound := by
  cases calm with
  | quiet => exact sound
  | aside => exact sound
  | settle up => exact soundSettle sound up

theorem Calm.cut {L : Ledger ε} {ws : List (Write ε)} (calm : Calm L ws) (sound : L.Sound)
    (k : Nat) : (applyAll L (ws.take k)).Sound := by
  cases calm with
  | quiet => simpa using sound
  | aside => cases k <;> simpa [Write.apply] using sound
  | @settle floor up =>
    cases k with
    | zero => simpa using sound
    | succ k =>
      cases k with
      | zero =>
        refine ⟨⟨sound.ascending,sound.below⟩,sound.goneBelow,?_⟩
        intro c low high
        have above : floor < c := low
        exact sound.once c (by omega) high
      | succ k =>
        rw [List.take_of_length_le (by simp)]
        exact soundSettle sound up

theorem Turn.sound {bound : Nat} {L : Ledger ε} {ws : List (Write ε)} (turn : Turn bound L ws)
    (sound : L.Sound) : (applyAll L ws).Sound := by
  cases turn with
  | calm h => exact h.sound sound
  | emit next reports =>
    rw [applyCons,applyAppend,applyForget,applyRecord]
    exact soundOverflow (soundAppend sound next) reports

theorem Turn.monotone {bound : Nat} {L : Ledger ε} {ws : List (Write ε)}
    (turn : Turn bound L ws) :
    L.floor ≤ (applyAll L ws).floor ∧ L.top ≤ (applyAll L ws).top := by
  cases turn with
  | calm h =>
    cases h with
    | quiet => exact ⟨le_rfl,le_rfl⟩
    | aside => exact ⟨le_rfl,le_rfl⟩
    | settle up => exact ⟨up,le_rfl⟩
  | emit next reports =>
    rw [applyCons,applyAppend,applyForget,applyRecord]
    refine ⟨le_rfl,?_⟩
    show L.top ≤ position _
    omega

theorem Turn.bounded {bound : Nat} {L : Ledger ε} {ws : List (Write ε)}
    (turn : Turn bound L ws) (bounded : L.Bounded bound) : (applyAll L ws).Bounded bound := by
  cases turn with
  | calm h =>
    cases h with
    | quiet => exact bounded
    | aside => exact bounded
    | settle up =>
      rw [Ledger.Bounded,settleUnsettled up]
      rcases bounded with fits | all
      · exact .inl (Nat.le_trans (List.length_filter_le _ _) fits)
      · exact .inr fun e he => all e (List.mem_of_mem_filter he)
  | @emit e rs next reports =>
    rw [applyCons,applyAppend,applyForget,applyRecord]
    exact overflowBound ((Write.append e).apply L)

theorem overflowSpares {bound : Nat} {L : Ledger ε} (ordered : L.Ordered) (rs : List (Nat × Nat))
    {e : ε} (listed : e ∈ L.live) (isKept : kept e = true) :
    e ∈ (applyAll L ((L.victims bound).map .forget ++ rs.map .record)).live := by
  rw [applyAppend,applyForget,applyRecord]
  refine List.mem_filter.mpr ⟨listed,decide_eq_true fun given => ?_⟩
  have unkept := victimLoose ordered listed given
  simp [isKept] at unkept

theorem Turn.keeps {bound : Nat} {L : Ledger ε} {ws : List (Write ε)} (turn : Turn bound L ws)
    (sound : L.Sound) {e : ε} (listed : e ∈ L.live) (isKept : kept e = true)
    (above : (applyAll L ws).floor < position e) : e ∈ (applyAll L ws).live := by
  cases turn with
  | calm h =>
    cases h with
    | quiet => exact listed
    | aside => exact listed
    | settle up => exact List.mem_filter.mpr ⟨listed,decide_eq_true above⟩
  | @emit new rs next reports =>
    have present : e ∈ ((Write.append new).apply L).live := List.mem_append_left _ listed
    exact overflowSpares (soundAppend sound next).toOrdered rs present isKept

theorem forgottenUncovered {bound : Nat} {L : Ledger ε} (sound : L.Sound) {ps : List Nat}
    {rs : List (Nat × Nat)} {c : Nat} (given : c ∈ ps) (victim : c ∈ L.victims bound)
    (silent : rs.countP (inRange c) = 0) : ¬((L.forget ps).record rs).Covered := by
  intro covered
  have live := (victimsSublist bound L).subset victim
  have low := victimsAbove victim
  have high := sound.below c live
  have once := sound.once c low high
  have counted : 0 < L.positions.count c := List.count_pos_iff.mpr live
  have gone : (L.forget ps).positions.count c = 0 := by rw [forgetCount,if_pos given]
  have parts : ((L.forget ps).record rs).accounts c =
      (L.forget ps).positions.count c + (L.gone.countP (inRange c) + 0) := by
    simp only [Ledger.accounts,Ledger.record,List.countP_append,silent]
    rfl
  have least := covered c low high
  unfold Ledger.accounts at once
  omega

theorem reportsNone {rs : List (Nat × Nat)} (h : Reports rs []) : rs = [] := by
  cases rs with
  | nil => rfl
  | cons r rest =>
    have inside := reportedHigh h (List.mem_cons_self (a := r))
    contradiction

theorem cutState {L : Ledger ε} {e : ε} {vs : List Nat}
    {rs : List (Nat × Nat)} (j : Nat) :
    applyAll L ((Write.append e :: (vs.map .forget ++ rs.map .record)).take (j + 1)) =
      (((Write.append e).apply L).forget (vs.take j)).record (rs.take (j - vs.length)) := by
  rw [List.take_succ_cons,applyCons,List.take_append,← List.map_take,← List.map_take,
    applyAppend,applyForget,applyRecord,List.length_map]

section Cuts
variable {bound : Nat} {L : Ledger ε} {e : ε} {rs : List (Nat × Nat)}

theorem cutSound (sound : L.Sound) (next : position e = L.top + 1)
    (reports : Reports rs (((Write.append e).apply L).victims bound)) {k : Nat}
    (outside : k ≤ 1 ∨ 1 + (((Write.append e).apply L).victims bound).length + rs.length ≤ k) :
    (applyAll L ((Write.append e ::
      ((((Write.append e).apply L).victims bound).map .forget ++
        rs.map .record)).take k)).Sound := by
  cases k with
  | zero => simpa using sound
  | succ j =>
    have appended := soundAppend sound next
    rw [cutState]
    rcases outside with early | late
    · obtain rfl : j = 0 := by omega
      simpa [Ledger.forget,Ledger.record] using appended
    · rw [List.take_of_length_le (by omega),List.take_of_length_le (by omega)]
      exact soundOverflow appended reports

theorem cutLost (sound : L.Sound) (next : position e = L.top + 1)
    (reports : Reports rs (((Write.append e).apply L).victims bound)) {k : Nat}
    (late : 1 < k)
    (early : k < 1 + (((Write.append e).apply L).victims bound).length + rs.length) :
    ¬(applyAll L ((Write.append e ::
      ((((Write.append e).apply L).victims bound).map .forget ++
        rs.map .record)).take k)).Covered := by
  obtain ⟨j,rfl⟩ : ∃ j, k = j + 1 := ⟨k - 1,by omega⟩
  have appended := soundAppend sound next
  rw [cutState]
  generalize hvs : ((Write.append e).apply L).victims bound = vs at reports early ⊢
  have victim {c : Nat} (given : c ∈ vs) : c ∈ ((Write.append e).apply L).victims bound := by
    rwa [hvs]
  by_cases deleting : j ≤ vs.length
  · cases vs with
    | nil =>
      have empty := reportsNone reports
      simp only [empty,List.length_nil] at early
      omega
    | cons v rest =>
      obtain ⟨i,rfl⟩ : ∃ i, j = i + 1 := ⟨j - 1,by omega⟩
      refine forgottenUncovered appended (c := v) (by simp) (victim (by simp)) ?_
      rw [Nat.sub_eq_zero_of_le deleting]
      rfl
  · obtain ⟨r,hr⟩ : ∃ r, r ∈ rs.drop (j - vs.length) := by
      apply List.exists_mem_of_ne_nil
      simp only [ne_eq,List.drop_eq_nil_iff]
      omega
    have high := reportedHigh reports (List.mem_of_mem_drop hr)
    have given : r.2 ∈ vs.take j := by rwa [List.take_of_length_le (by omega)]
    refine forgottenUncovered appended given (victim high) ?_
    have total := reports.exact r.2
    have distinct : vs.Nodup := by
      rw [← hvs]; exact appended.nodup.sublist (victimsSublist bound _)
    rw [List.count_eq_one_of_mem distinct high,
      ← List.take_append_drop (j - vs.length) rs,List.countP_append] at total
    have later : 0 < (rs.drop (j - vs.length)).countP (inRange r.2) :=
      List.countP_pos_iff.mpr
        ⟨r,hr,by simp [inRange,reports.proper r (List.mem_of_mem_drop hr)]⟩
    omega

end Cuts

end ControlCenter.PositionLedger
