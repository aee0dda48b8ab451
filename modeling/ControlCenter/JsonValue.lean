import Mathlib.Data.Rat.Defs
import Mathlib.Data.List.Sort

/-! Values as JSON.parse can produce them and as JavaScript objects can hold them
in memory: members and items may be undefined, numbers may be non-finite.
A finite number is its exact value; strings are sequences of Unicode scalars. -/
namespace ControlCenter.JsonValue

inductive Number where
  | finite (value : Rat)
  | negativeZero
  | infinity (negative : Bool)
  | nan
  deriving DecidableEq, Repr

inductive Json where
  | undefined
  | null
  | boolean (value : Bool)
  | number (value : Number)
  | string (value : String)
  | array (items : List Json)
  | object (members : List (String × Json))
  deriving Repr

def Json.nat (n : Nat) : Json := .number (.finite n)

def lookup (key : String) : List (String × Json) → Option Json
  | [] => none
  | (k,v)::rest => if k = key then some v else lookup key rest

-- Property access: a missing member and a non-object both read as undefined.
def Json.get (key : String) : Json → Json
  | .object members => (lookup key members).getD .undefined
  | _ => .undefined

def Json.has (key : String) : Json → Bool
  | .object members => (lookup key members).isSome
  | _ => false

def Json.text : Json → Option String
  | .string s => some s
  | _ => none

-- Negative zero is an integer for Number.isInteger and equal to zero.
def Number.integer? : Number → Option Int
  | .finite q => if q.den = 1 then some q.num else none
  | .negativeZero => some 0
  | .infinity _ | .nan => none

def Json.natural : Json → Nat
  | .number n => (n.integer?.getD 0).toNat
  | _ => 0

-- The UTF-16 code units of a string: its JavaScript length and sort order.
def utf16 (s : String) : List Nat := s.toList.flatMap fun c =>
  if c.toNat < 0x10000 then [c.toNat]
  else [0xd800 + (c.toNat - 0x10000) / 0x400,0xdc00 + (c.toNat - 0x10000) % 0x400]

@[simp] theorem naturalOfNat (n : Nat) : (Json.nat n).natural = n := by
  simp [Json.nat,Json.natural,Number.integer?]

@[simp] theorem getObject (key : String) (members : List (String × Json)) :
    (Json.object members).get key = (lookup key members).getD .undefined := rfl

@[simp] theorem lookupNil (key : String) : lookup key [] = none := rfl

@[simp] theorem lookupCons (key k : String) (v : Json) (rest : List (String × Json)) :
    lookup key ((k,v)::rest) = if k = key then some v else lookup key rest := rfl

theorem hasGiven {key : String} {v : Json} (given : v.get key ≠ .undefined) :
    v.has key = true := by
  cases v with
  | object members =>
    rw [getObject] at given
    cases held : lookup key members with
    | none => exact absurd (by rw [held]; rfl) given
    | some value => rw [Json.has,held]; rfl
  | _ => exact absurd rfl given

theorem lookupAppend (key : String) (front back : List (String × Json)) :
    lookup key (front ++ back) = (lookup key front).or (lookup key back) := by
  induction front with
  | nil => rfl
  | cons member rest ih =>
    obtain ⟨k,v⟩ := member
    rw [List.cons_append,lookupCons,lookupCons,ih]
    split <;> rfl

def present (key : String) : Option String → List (String × Json)
  | none => []
  | some s => [(key,.string s)]

theorem lookupPresent (key k : String) (text : Option String) :
    lookup key (present k text) = if k = key then text.map .string else none := by
  cases text with
  | none => rw [present,lookupNil]; split <;> rfl
  | some s => rfl

mutual
-- JSON.parse (JSON.stringify v): undefined members disappear, undefined items
-- and non-finite numbers read back as null, negative zero reads back as zero.
def Json.image : Json → Json
  | .undefined => .undefined
  | .null => .null
  | .boolean b => .boolean b
  | .number (.finite q) => .number (.finite q)
  | .number .negativeZero => .nat 0
  | .number (.infinity _) | .number .nan => .null
  | .string s => .string s
  | .array items => .array (imageItems items)
  | .object members => .object (imageMembers members)

def imageItems : List Json → List Json
  | [] => []
  | .undefined::rest => .null :: imageItems rest
  | v::rest => v.image :: imageItems rest

def imageMembers : List (String × Json) → List (String × Json)
  | [] => []
  | (_,.undefined)::rest => imageMembers rest
  | (k,v)::rest => (k,v.image) :: imageMembers rest
end

mutual
def Distinct : Json → Prop
  | .array items => DistinctItems items
  | .object members => (members.map Prod.fst).Nodup ∧ DistinctMembers members
  | .undefined | .null | .boolean _ | .number _ | .string _ => True

def DistinctItems : List Json → Prop
  | [] => True
  | v::rest => Distinct v ∧ DistinctItems rest

def DistinctMembers : List (String × Json) → Prop
  | [] => True
  | (_,v)::rest => Distinct v ∧ DistinctMembers rest
end

theorem memberLooked {members : List (String × Json)} {k : String} {v : Json}
    (held : lookup k members = some v) : (k,v) ∈ members := by
  induction members with
  | nil => cases held
  | cons member rest ih =>
    obtain ⟨k',v'⟩ := member
    rw [lookupCons] at held
    split at held
    next same =>
      cases held
      exact same ▸ List.mem_cons_self
    next => exact List.mem_cons_of_mem _ (ih held)

theorem lookupMember {members : List (String × Json)} (unique : (members.map Prod.fst).Nodup)
    {k : String} {v : Json} (listed : (k,v) ∈ members) : lookup k members = some v := by
  induction members with
  | nil => cases listed
  | cons member rest ih =>
    obtain ⟨k',v'⟩ := member
    obtain ⟨fresh,unique⟩ := List.nodup_cons.mp unique
    rw [lookupCons]
    rcases List.mem_cons.mp listed with same | listed
    · cases same
      exact if_pos rfl
    · have other : k' ≠ k := fun same =>
        fresh (List.mem_map.mpr ⟨(k,v),listed,same.symm⟩)
      rw [if_neg other]
      exact ih unique listed

end ControlCenter.JsonValue
