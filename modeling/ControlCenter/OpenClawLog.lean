import ControlCenter.RunLogic
import Mathlib.Logic.Function.Basic

/-! The log of the answers of an OpenClaw run: what one call appends under the cap, and any
number of calls whose appends are in flight together. -/
namespace ControlCenter.OpenClawLog
open RunLogic

abbrev Bytes := List UInt8

def utf8 (text : String) : Bytes := text.toList.map fun c => c.toNat.toUInt8

def marker : Bytes := utf8 "\n[OpenClaw HTTP log truncated]\n"

structure Answer where
  status : Nat
  serialized : Bytes
  deriving DecidableEq, Repr

def Answer.line (a : Answer) : Bytes :=
  (Nat.toDigits 10 a.status).map (fun c => c.toNat.toUInt8) ++ utf8 " " ++ a.serialized ++ utf8 "\n"

-- What is appended, if anything, and the count that is kept once it has been.
def recordHttp (maxRunLogBytes used : Nat) (a : Answer) : Option (Bytes × Nat) :=
  let remaining := maxRunLogBytes - used
  if remaining = 0 then none
  else if a.line.length ≤ remaining then some (a.line,used + a.line.length)
  else
    let contentBytes := remaining - marker.length
    let tail := marker.take (remaining - contentBytes)
    some ((a.line.take contentBytes ++ tail).take remaining,maxRunLogBytes)

structure Flight where
  used : Nat
  chunk : Bytes
  next : Nat
  landed : Bool
  deriving DecidableEq, Repr

structure Log where
  file : Bytes
  logBytes : Nat
  flights : Nat → Option Flight

def Log.new : Log := ⟨[],0,fun _ => none⟩

def Log.setFlight (l : Log) (i : Nat) (f : Option Flight) : Log :=
  {l with flights := Function.update l.flights i f}

inductive Event where
  | record (i : Nat) (a : Answer)
  | land (i : Nat)
  | settle (i : Nat)
  | fail (i : Nat) (written : Nat)
  deriving DecidableEq, Repr

def step (maxRunLogBytes : Nat) (l : Log) : Event → Log
  | .record i a => match l.flights i,recordHttp maxRunLogBytes l.logBytes a with
      | none,some (chunk,next) => l.setFlight i (some ⟨l.logBytes,chunk,next,false⟩)
      | _,_ => l
  | .land i => match l.flights i with
      | some ⟨used,chunk,next,false⟩ =>
          {l.setFlight i (some ⟨used,chunk,next,true⟩) with file := l.file ++ chunk}
      | _ => l
  | .settle i => match l.flights i with
      | some ⟨_,_,next,true⟩ => {l.setFlight i none with logBytes := next}
      | _ => l
  | .fail i written => match l.flights i with
      | some ⟨_,chunk,_,false⟩ => {l.setFlight i none with file := l.file ++ chunk.take written}
      | _ => l

def alone (l : Log) : Event → Bool
  | .land i => match l.flights i with
      | some ⟨used,_,_,false⟩ => l.file.length == used
      | _ => true
  | .fail i written => match l.flights i with
      | some ⟨_,chunk,_,false⟩ => (chunk.take written).isEmpty
      | _ => true
  | .record _ _ | .settle _ => true

def Capped (maxRunLogBytes : Nat) (l : Log) : Prop :=
  l.file.length ≤ maxRunLogBytes ∧ ((∀ i, l.flights i = none) → l.logBytes = l.file.length)

theorem recordCapped {max used : Nat} {a : Answer} {chunk : Bytes} {next : Nat}
    (recorded : recordHttp max used a = some (chunk,next)) :
    used + chunk.length = next ∧ next ≤ max ∧ 0 < chunk.length := by
  have written : 0 < a.line.length := by
    simp only [Answer.line,utf8,List.length_append,List.length_map]
    exact Nat.lt_add_left _ (by decide)
  have marks : marker.length = 31 := by decide +kernel
  simp only [recordHttp] at recorded
  split at recorded
  · cases recorded
  · split at recorded
    · cases recorded
      omega
    · cases recorded
      simp only [List.length_take,List.length_append,marks]
      omega

structure Kept (max : Nat) (l : Log) : Prop where
  flights : ∀ i f, l.flights i = some f → f.used + f.chunk.length = f.next ∧ f.next ≤ max ∧
    0 < f.chunk.length ∧ f.used ≤ l.logBytes
  landed : ∀ i f, l.flights i = some f → f.landed = true →
    l.file.length = f.next ∧ f.used = l.logBytes
  single : ∀ i j f g, l.flights i = some f → l.flights j = some g → f.landed = true →
    g.landed = true → i = j
  even : (∀ i f, l.flights i = some f → f.landed = false) → l.file.length = l.logBytes
  within : l.file.length ≤ max

variable {max : Nat} {l : Log}

theorem Kept.capped (kept : Kept max l) : Capped max l :=
  ⟨kept.within,fun quiet => (kept.even fun i _ found => nomatch (quiet i).symm.trans found).symm⟩

theorem keptNew : Kept max .new := by
  refine ⟨?_,?_,?_,fun _ => rfl,Nat.zero_le _⟩
  · intro i f found
    cases found
  · intro i f found
    cases found
  · intro i j f g found
    cases found

theorem setSource {i j : Nat} {held : Option Flight} {f : Flight}
    (found : (l.setFlight i held).flights j = some f) :
    j = i ∧ held = some f ∨ j ≠ i ∧ l.flights j = some f := by
  dsimp only [Log.setFlight] at found
  by_cases same : j = i
  · rw [same,Function.update_self] at found
    exact .inl ⟨same,found⟩
  · rw [Function.update_of_ne same] at found
    exact .inr ⟨same,found⟩

theorem Kept.records (kept : Kept max l) {i : Nat} {a : Answer} {chunk : Bytes} {next : Nat}
    (free : l.flights i = none) (recorded : recordHttp max l.logBytes a = some (chunk,next)) :
    Kept max (l.setFlight i (some ⟨l.logBytes,chunk,next,false⟩)) := by
  obtain ⟨counts,below,some_⟩ := recordCapped recorded
  refine ⟨?_,?_,?_,fun quiet => kept.even fun j f found => ?_,kept.within⟩
  · intro j f found
    rcases setSource found with ⟨-,same⟩ | ⟨-,found⟩
    · cases same
      exact ⟨counts,below,some_,Nat.le_refl _⟩
    · exact kept.flights j f found
  · intro j f found landed
    rcases setSource found with ⟨-,same⟩ | ⟨-,found⟩
    · cases same
      cases landed
    · exact kept.landed j f found landed
  · intro j k f g found found' landed landed'
    rcases setSource found with ⟨-,same⟩ | ⟨-,found⟩
    · cases same
      cases landed
    · rcases setSource found' with ⟨-,same⟩ | ⟨-,found'⟩
      · cases same
        cases landed'
      · exact kept.single j k f g found found' landed landed'
  · have other : j ≠ i := fun same => nomatch (same ▸ free).symm.trans found
    exact quiet j f ((Function.update_of_ne other ..).trans found)

theorem Kept.unlanded (kept : Kept max l) {i j : Nat} {f g : Flight} (found : l.flights i = some f)
    (there : l.file.length = f.used) (found' : l.flights j = some g) : g.landed = false := by
  by_contra landed
  obtain ⟨ends,seen⟩ := kept.landed j g found' (by simpa using landed)
  obtain ⟨counts,-,some_,-⟩ := kept.flights j g found'
  obtain ⟨-,-,-,early⟩ := kept.flights i f found
  omega

theorem Kept.lands (kept : Kept max l) {i used next : Nat} {chunk : Bytes}
    (found : l.flights i = some ⟨used,chunk,next,false⟩) (there : l.file.length = used) :
    Kept max {l.setFlight i (some ⟨used,chunk,next,true⟩) with file := l.file ++ chunk} := by
  obtain ⟨counts,below,some_,early⟩ := kept.flights i _ found
  have quiet (j : Nat) (g : Flight) (found' : l.flights j = some g) : g.landed = false :=
    kept.unlanded found there found'
  have even := kept.even quiet
  dsimp only at counts below some_ early
  refine ⟨?_,?_,?_,?_,?_⟩
  · intro j g found'
    rcases setSource found' with ⟨-,same⟩ | ⟨-,found'⟩
    · cases same
      exact ⟨counts,below,some_,early⟩
    · exact kept.flights j g found'
  · intro j g found' landed
    rcases setSource found' with ⟨-,same⟩ | ⟨-,found'⟩
    · cases same
      refine ⟨?_,there.symm.trans even⟩
      rw [List.length_append,there]
      exact counts
    · exact absurd landed (by simp [quiet j g found'])
  · intro j k f g found' found'' landed landed'
    rcases setSource found' with ⟨own,-⟩ | ⟨-,found'⟩
    · rcases setSource found'' with ⟨own',-⟩ | ⟨-,found''⟩
      · exact own.trans own'.symm
      · exact absurd landed' (by simp [quiet k g found''])
    · exact absurd landed (by simp [quiet j f found'])
  · intro all
    have mine := all i ⟨used,chunk,next,true⟩ (Function.update_self ..)
    cases mine
  · show (l.file ++ chunk).length ≤ max
    rw [List.length_append]
    omega

theorem Kept.settles (kept : Kept max l) {i used next : Nat} {chunk : Bytes}
    (found : l.flights i = some ⟨used,chunk,next,true⟩) :
    Kept max {l.setFlight i none with logBytes := next} := by
  obtain ⟨ends,seen⟩ := kept.landed i _ found rfl
  obtain ⟨counts,-,-,-⟩ := kept.flights i _ found
  dsimp only at ends seen counts
  have others {j : Nat} {g : Flight} (found' : (l.setFlight i none).flights j = some g) :
      l.flights j = some g ∧ g.landed = false := by
    rcases setSource found' with ⟨-,same⟩ | ⟨other,found'⟩
    · cases same
    · refine ⟨found',?_⟩
      by_contra landed
      exact other (kept.single j i g _ found' found (by simpa using landed) rfl)
  refine ⟨?_,?_,?_,fun _ => ends,kept.within⟩
  · intro j g found'
    obtain ⟨counts',below,some_,early⟩ := kept.flights j g (others found').1
    refine ⟨counts',below,some_,?_⟩
    dsimp only
    omega
  · intro j g found' landed
    exact absurd landed (by simp [(others found').2])
  · intro j k f g found' _ landed
    exact absurd landed (by simp [(others found').2])

theorem Kept.fails (kept : Kept max l) {i used next : Nat} {chunk : Bytes}
    (found : l.flights i = some ⟨used,chunk,next,false⟩) : Kept max (l.setFlight i none) := by
  have others {j : Nat} {g : Flight} (found' : (l.setFlight i none).flights j = some g) :
      l.flights j = some g := by
    rcases setSource found' with ⟨-,same⟩ | ⟨-,found'⟩
    · cases same
    · exact found'
  refine ⟨fun j g found' => kept.flights j g (others found'),fun j g found' =>
    kept.landed j g (others found'),fun j k f g found' found'' =>
    kept.single j k f g (others found') (others found''),fun quiet => kept.even fun j g found' => ?_,
    kept.within⟩
  by_cases same : j = i
  · cases (same ▸ found').symm.trans found
    rfl
  · exact quiet j g ((Function.update_of_ne same ..).trans found')

theorem Kept.step {e : Event} (kept : Kept max l) (meets : alone l e = true) :
    Kept max (step max l e) := by
  cases e with
  | record i a =>
    simp only [OpenClawLog.step]
    split
    next free recorded => exact kept.records free recorded
    next => exact kept
  | land i =>
    simp only [OpenClawLog.step]
    split
    next used chunk next found =>
      simp only [alone,found,beq_iff_eq] at meets
      exact kept.lands found meets
    next => exact kept
  | settle i =>
    simp only [OpenClawLog.step]
    split
    next used chunk next found => exact kept.settles found
    next => exact kept
  | fail i written =>
    simp only [OpenClawLog.step]
    split
    next used chunk next found =>
      simp only [alone,found,List.isEmpty_iff] at meets
      rw [meets,List.append_nil]
      exact kept.fails found
    next => exact kept

/-- The log stays under its cap, and its count is right whenever nothing is in flight, as long
as every append lands where its call saw the end of the file. -/
theorem logCapped (maxRunLogBytes : Nat) {events : List Event}
    (meets : ∀ front e back, events = front ++ e::back →
      alone (reach (step maxRunLogBytes) .new front) e = true)
    (front back : List Event) (split : events = front ++ back) :
    Capped maxRunLogBytes (reach (step maxRunLogBytes) .new front) :=
  (reachMet (step maxRunLogBytes) (I := Kept maxRunLogBytes) (fun _ _ kept met => kept.step met)
    keptNew meets front back split).capped

def health : Answer := ⟨200,utf8 "null"⟩

def sequential : List Event := [.record 0 health,.land 0,.settle 0,.record 1 health,.land 1,.settle 1]

theorem sequentialCapped : Capped 12 (reach (step 12) .new sequential) := by
  have checked : everyStep (step 12) alone .new sequential = true := by decide +kernel
  exact logCapped 12 (fun _ _ _ split => everyStepSource (step 12) checked split) sequential []
    (List.append_nil _).symm

def together : List Event := [.record 0 health,.record 1 health,.land 0,.land 1]

theorem togetherUncapped : ¬ Capped 12 (reach (step 12) .new together) := by
  have length : (reach (step 12) .new together).file.length = 18 := by decide +kernel
  intro capped
  have := capped.1
  omega

end ControlCenter.OpenClawLog
