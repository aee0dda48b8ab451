import ControlCenter.JsonText

/-! UTF-8 of texts of UTF-16 code units, and percent encoding: a reader that takes one byte
at a time, what it reads of the bytes of a text, and of their percent triplets. -/
namespace ControlCenter.Utf8
open JsonText (CodeUnit Text high low hexValue)

structure State where
  owed : Nat
  least : Nat
  greatest : Nat
  point : Nat
  deriving DecidableEq, Repr

inductive Reading where
  | refused
  | owing (s : State)
  | point (p : Nat)
  deriving DecidableEq, Repr

def lead (b : Nat) : Reading :=
  if b < 0x80 then .point b
  else if b < 0xc2 then .refused
  else if b < 0xe0 then .owing ⟨1,0x80,0xbf,b - 0xc0⟩
  else if b < 0xf0 then
    .owing ⟨2,if b = 0xe0 then 0xa0 else 0x80,if b = 0xed then 0x9f else 0xbf,b - 0xe0⟩
  else if b < 0xf5 then
    .owing ⟨3,if b = 0xf0 then 0x90 else 0x80,if b = 0xf4 then 0x8f else 0xbf,b - 0xf0⟩
  else .refused

def State.take (s : State) (b : Nat) : Reading :=
  if b < s.least ∨ s.greatest < b then .refused
  else if s.owed ≤ 1 then .point (s.point * 64 + (b - 0x80))
  else .owing ⟨s.owed - 1,0x80,0xbf,s.point * 64 + (b - 0x80)⟩

def read : Option State → Nat → Reading
  | none => lead
  | some s => s.take

def replacement : Nat := 0xfffd

def decodeFrom : Option State → List Nat → List Nat
  | none,[] => []
  | some _,[] => [replacement]
  | none,b::rest => match lead b with
    | .point p => p::decodeFrom none rest
    | .owing s => decodeFrom (some s) rest
    | .refused => replacement::decodeFrom none rest
  | some s,b::rest => match s.take b with
    | .point p => p::decodeFrom none rest
    | .owing s => decodeFrom (some s) rest
    | .refused => replacement::match lead b with
      | .point p => p::decodeFrom none rest
      | .owing s => decodeFrom (some s) rest
      | .refused => replacement::decodeFrom none rest

def pointBytes (p : Nat) : List Nat :=
  if p < 0x80 then [p]
  else if p < 0x800 then [0xc0 + p / 64,0x80 + p % 64]
  else if p < 0x10000 then [0xe0 + p / 4096,0x80 + p / 64 % 64,0x80 + p % 64]
  else [0xf0 + p / 262144,0x80 + p / 4096 % 64,0x80 + p / 64 % 64,0x80 + p % 64]

def surrogate (p : Nat) : Bool := 0xd800 ≤ p && p < 0xe000

structure Scalar (p : Nat) : Prop where
  bound : p < 0x110000
  whole : surrogate p = false

inductive Reads : Option State → List Nat → Nat → Prop
  | last {s : Option State} {b p : Nat} (ends : read s b = .point p) : Reads s [b] p
  | more {s : Option State} {b p : Nat} {t : State} {rest : List Nat}
      (owes : read s b = .owing t) (later : Reads (some t) rest p) : Reads s (b::rest) p

theorem takeLast {least greatest q b : Nat} (low : least ≤ b) (high : b ≤ greatest) :
    read (some ⟨1,least,greatest,q⟩) b = .point (q * 64 + (b - 0x80)) := by
  simp only [read,State.take]
  rw [if_neg (by omega),if_pos (by omega)]

theorem takeMore {owed least greatest q b : Nat} (low : least ≤ b) (high : b ≤ greatest) :
    read (some ⟨owed + 2,least,greatest,q⟩) b =
      .owing ⟨owed + 1,0x80,0xbf,q * 64 + (b - 0x80)⟩ := by
  simp only [read,State.take]
  rw [if_neg (by omega),if_neg (by omega)]
  rfl

theorem leadTwo {b : Nat} (low : 0xc2 ≤ b) (high : b < 0xe0) :
    read none b = .owing ⟨1,0x80,0xbf,b - 0xc0⟩ := by
  simp only [read,lead]
  rw [if_neg (by omega),if_neg (by omega),if_pos high]

theorem leadThree {b : Nat} (low : 0xe0 ≤ b) (high : b < 0xf0) :
    read none b =
      .owing ⟨2,if b = 0xe0 then 0xa0 else 0x80,if b = 0xed then 0x9f else 0xbf,b - 0xe0⟩ := by
  simp only [read,lead]
  rw [if_neg (by omega),if_neg (by omega),if_neg (by omega),if_pos high]

theorem leadFour {b : Nat} (low : 0xf0 ≤ b) (high : b < 0xf5) :
    read none b =
      .owing ⟨3,if b = 0xf0 then 0x90 else 0x80,if b = 0xf4 then 0x8f else 0xbf,b - 0xf0⟩ := by
  simp only [read,lead]
  rw [if_neg (by omega),if_neg (by omega),if_neg (by omega),if_neg (by omega),if_pos high]

theorem Reads.point {s : Option State} {bytes : List Nat} {p q : Nat} (reads : Reads s bytes p)
    (same : p = q) : Reads s bytes q := same ▸ reads

theorem pointReads {p : Nat} (scalar : Scalar p) : Reads none (pointBytes p) p := by
  have bound := scalar.bound
  have whole : p < 0xd800 ∨ 0xe000 ≤ p := by
    have held := scalar.whole
    simp only [surrogate,Bool.and_eq_false_iff,decide_eq_false_iff_not] at held
    omega
  unfold pointBytes
  split
  next one => exact .last (by simp only [read,lead,if_pos one])
  split
  next two =>
    exact .more (leadTwo (by omega) (by omega))
      ((Reads.last (takeLast (by omega) (by omega))).point (by omega))
  split
  next three =>
    refine .more (leadThree (by omega) (by omega)) (.more (takeMore ?_ ?_)
      ((Reads.last (takeLast (by omega) (by omega))).point (by omega)))
    · split <;> omega
    · split <;> omega
  next four =>
    refine .more (leadFour (by omega) (by omega)) (.more (takeMore ?_ ?_)
      (.more (takeMore (by omega) (by omega))
        ((Reads.last (takeLast (by omega) (by omega))).point (by omega))))
    · split <;> omega
    · split <;> omega

theorem Reads.decoded {s : Option State} {bytes : List Nat} {p : Nat} (reads : Reads s bytes p)
    (rest : List Nat) : decodeFrom s (bytes ++ rest) = p::decodeFrom none rest := by
  induction reads with
  | @last s b p ends =>
    cases s with
    | none =>
      have ends : lead b = .point p := ends
      simp only [List.singleton_append,decodeFrom,ends]
    | some s =>
      have ends : s.take b = .point p := ends
      simp only [List.singleton_append,decodeFrom,ends]
  | @more s b p t bytes owes later ih =>
    cases s with
    | none =>
      have owes : lead b = .owing t := owes
      simp only [List.cons_append,decodeFrom,owes,ih]
    | some s =>
      have owes : s.take b = .owing t := owes
      simp only [List.cons_append,decodeFrom,owes,ih]

theorem decodePoints {points : List Nat} (scalars : ∀ p ∈ points, Scalar p) :
    decodeFrom none (points.flatMap pointBytes) = points := by
  induction points with
  | nil => rfl
  | cons p rest ih =>
    rw [List.flatMap_cons,(pointReads (scalars p List.mem_cons_self)).decoded,
      ih fun q inside => scalars q (List.mem_cons_of_mem _ inside)]

theorem pointBytesSmall {p : Nat} (bound : p < 0x110000) : ∀ b ∈ pointBytes p, b < 256 := by
  unfold pointBytes
  intro b inside
  split at inside
  · simp only [List.mem_singleton] at inside
    omega
  split at inside
  · simp only [List.mem_cons,List.not_mem_nil,or_false] at inside
    omega
  split at inside
  · simp only [List.mem_cons,List.not_mem_nil,or_false] at inside
    omega
  · simp only [List.mem_cons,List.not_mem_nil,or_false] at inside
    omega

def pointUnits (p : Nat) : Text :=
  if p < 0x10000 then [Fin.ofNat 65536 p]
  else [Fin.ofNat 65536 (0xd800 + (p - 0x10000) / 0x400),
    Fin.ofNat 65536 (0xdc00 + (p - 0x10000) % 0x400)]

def pairPoint (c d : CodeUnit) : Nat := 0x10000 + (c.val - 0xd800) * 0x400 + (d.val - 0xdc00)

def unitPoint (c : CodeUnit) : Nat := if surrogate c.val then replacement else c.val

def points : Text → List Nat
  | [] => []
  | [a] => [unitPoint a]
  | a::b::rest =>
      if high a && low b then pairPoint a b::points rest else unitPoint a::points (b::rest)

def wellFormed : Text → Bool
  | [] => true
  | [a] => !surrogate a.val
  | a::b::rest =>
      if high a && low b then wellFormed rest else !surrogate a.val && wellFormed (b::rest)

def encode (s : Text) : List Nat := (points s).flatMap pointBytes

def decode (bytes : List Nat) : Text := (decodeFrom none bytes).flatMap pointUnits

theorem wholeAbove {p : Nat} (above : 0xe000 ≤ p) : surrogate p = false := by
  simp only [surrogate,Bool.and_eq_false_iff,decide_eq_false_iff_not]
  exact .inr (Nat.not_lt.mpr above)

theorem pairScalar {c d : CodeUnit} (pair : (high c && low d) = true) : Scalar (pairPoint c d) := by
  simp only [high,low,Bool.and_eq_true,decide_eq_true_eq] at pair
  obtain ⟨⟨high,_⟩,low,_⟩ := pair
  have bound : pairPoint c d < 0x110000 := by
    unfold pairPoint
    omega
  have above : 0xe000 ≤ pairPoint c d := by
    unfold pairPoint
    omega
  exact ⟨bound,wholeAbove above⟩

theorem pairUnits {c d : CodeUnit} (pair : (high c && low d) = true) :
    pointUnits (pairPoint c d) = [c,d] := by
  simp only [high,low,Bool.and_eq_true,decide_eq_true_eq] at pair
  have c' := c.isLt
  have d' := d.isLt
  unfold pointUnits pairPoint
  rw [if_neg (by omega)]
  have first : Fin.ofNat 65536 (0xd800 +
      (0x10000 + (c.val - 0xd800) * 0x400 + (d.val - 0xdc00) - 0x10000) / 0x400) = c := by
    apply Fin.ext
    simp only [Fin.ofNat]
    omega
  have second : Fin.ofNat 65536 (0xdc00 +
      (0x10000 + (c.val - 0xd800) * 0x400 + (d.val - 0xdc00) - 0x10000) % 0x400) = d := by
    apply Fin.ext
    simp only [Fin.ofNat]
    omega
  rw [first,second]

theorem unitScalar (c : CodeUnit) : Scalar (unitPoint c) := by
  unfold unitPoint
  split
  · exact ⟨by decide,by decide⟩
  next whole => exact ⟨Nat.lt_trans c.isLt (by decide),Bool.eq_false_iff.mpr whole⟩

theorem unitUnits {c : CodeUnit} (whole : surrogate c.val = false) :
    pointUnits (unitPoint c) = [c] := by
  have bound := c.isLt
  rw [unitPoint,if_neg (by simp [whole]),pointUnits,if_pos bound]
  congr 1
  apply Fin.ext
  simp only [Fin.ofNat]
  exact Nat.mod_eq_of_lt bound

theorem pointsScalar (s : Text) : ∀ p ∈ points s, Scalar p := by
  fun_induction points s with
  | case1 => simp
  | case2 a => simpa using unitScalar a
  | case3 a b rest pair ih =>
    intro p inside
    rcases List.mem_cons.mp inside with same | inside
    · exact same ▸ pairScalar pair
    · exact ih p inside
  | case4 a b rest pair ih =>
    intro p inside
    rcases List.mem_cons.mp inside with same | inside
    · exact same ▸ unitScalar a
    · exact ih p inside

theorem pointsUnits {s : Text} (formed : wellFormed s = true) :
    (points s).flatMap pointUnits = s := by
  fun_induction points s with
  | case1 => rfl
  | case2 a =>
    simp only [wellFormed,Bool.not_eq_true'] at formed
    simp [unitUnits formed]
  | case3 a b rest pair ih =>
    simp only [wellFormed,pair,if_true] at formed
    rw [List.flatMap_cons,pairUnits pair,ih formed]
    rfl
  | case4 a b rest pair ih =>
    simp only [wellFormed,pair,Bool.false_eq_true,if_false,Bool.and_eq_true,
      Bool.not_eq_true'] at formed
    rw [List.flatMap_cons,unitUnits formed.1,ih formed.2]
    rfl

theorem decodeEncode {s : Text} (formed : wellFormed s = true) : decode (encode s) = s := by
  rw [decode,encode,decodePoints (pointsScalar s),pointsUnits formed]

theorem encodeSmall (s : Text) : ∀ b ∈ encode s, b < 256 := by
  intro b inside
  obtain ⟨p,there,mine⟩ := List.mem_flatMap.mp inside
  exact pointBytesSmall (pointsScalar s p there).bound b mine

inductive Mode where
  | plain
  | percent (s : State)
  | first (s : Option State)
  | second (s : Option State) (h : Nat)

-- decodeURIComponent: the triplets of a code point are read together, or the text is refused.
def decodeComponent : Mode → Text → Option Text
  | .plain,[] => some []
  | .percent _,[] | .first _,[] | .second ..,[] => none
  | .plain,c::rest =>
      if c = 37 then decodeComponent (.first none) rest
      else (decodeComponent .plain rest).map (c :: ·)
  | .percent s,c::rest => if c = 37 then decodeComponent (.first (some s)) rest else none
  | .first s,c::rest => match hexValue c with
    | none => none
    | some h => decodeComponent (.second s h) rest
  | .second s h,c::rest => match hexValue c with
    | none => none
    | some l => match read s (h * 16 + l) with
      | .point p => (decodeComponent .plain rest).map (pointUnits p ++ ·)
      | .owing s => decodeComponent (.percent s) rest
      | .refused => none

def Triplet (b : Nat) (t : Text) : Prop :=
  ∃ h l x y, t = [37,h,l] ∧ hexValue h = some x ∧ hexValue l = some y ∧ x * 16 + y = b

def Mode.awaits : Option State → Mode
  | none => .plain
  | some s => .percent s

theorem awaitsTriplet {s : Option State} {b : Nat} {t : Text} (triplet : Triplet b t)
    (rest : Text) : decodeComponent (.awaits s) (t ++ rest) = match read s b with
      | .point p => (decodeComponent .plain rest).map (pointUnits p ++ ·)
      | .owing s => decodeComponent (.percent s) rest
      | .refused => none := by
  obtain ⟨h,l,x,y,rfl,first,second,rfl⟩ := triplet
  cases s with
  | none => simp only [Mode.awaits,List.cons_append,List.nil_append,decodeComponent,if_true,first,second]
  | some s => simp only [Mode.awaits,List.cons_append,List.nil_append,decodeComponent,if_true,first,second]

theorem Reads.component {f : Nat → Text} {s : Option State} {bytes : List Nat} {p : Nat}
    (reads : Reads s bytes p) (triplets : ∀ b ∈ bytes, Triplet b (f b)) (rest : Text) :
    decodeComponent (.awaits s) (bytes.flatMap f ++ rest) =
      (decodeComponent .plain rest).map (pointUnits p ++ ·) := by
  induction reads with
  | @last s b p ends =>
    rw [List.flatMap_cons,List.flatMap_nil,List.append_nil,
      awaitsTriplet (triplets b List.mem_cons_self),ends]
  | @more s b p t bytes owes later ih =>
    rw [List.flatMap_cons,List.append_assoc,awaitsTriplet (triplets b List.mem_cons_self),owes]
    exact ih fun c inside => triplets c (List.mem_cons_of_mem _ inside)

theorem decodeTriplets {f : Nat → Text} {p : Nat} (scalar : Scalar p)
    (triplets : ∀ b < 256, Triplet b (f b)) (rest : Text) :
    decodeComponent .plain ((pointBytes p).flatMap f ++ rest) =
      (decodeComponent .plain rest).map (pointUnits p ++ ·) :=
  (pointReads scalar).component (fun b inside => triplets b (pointBytesSmall scalar.bound b inside))
    rest

theorem decodePlain {c : CodeUnit} (plain : c ≠ 37) (rest : Text) :
    decodeComponent .plain (c::rest) = (decodeComponent .plain rest).map (c :: ·) := by
  rw [decodeComponent,if_neg plain]

end ControlCenter.Utf8
