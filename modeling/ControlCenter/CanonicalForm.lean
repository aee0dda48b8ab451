import ControlCenter.JsonText
import ControlCenter.SealedEnvelopes
import Mathlib.Data.List.Lex

/-! canonicalJson over the values of JavaScript, strings as UTF-16 code units: its text is
that of a normal form, which JSON.parse returns, and which two values share exactly when
they differ in nothing but the order of keys and what JSON does not tell apart. -/
namespace ControlCenter.CanonicalForm
open JsonText

variable {N : Type}

def keyOrder {V : Type} (a b : Text × V) : Prop := a.1 ≤ b.1
instance {V : Type} : DecidableRel (keyOrder (V := V)) := fun a b =>
  inferInstanceAs (Decidable (a.1 ≤ b.1))

instance {V : Type} : Std.Total (keyOrder (V := V)) := ⟨fun a b => le_total a.1 b.1⟩
instance {V : Type} : IsTrans (Text × V) keyOrder := ⟨fun _ _ _ first next => le_trans first next⟩

mutual
def canonicalJson (f : NumberFormat N) : Value N → Except String Text
  | .null => .ok (ascii "null")
  | .boolean b => .ok (ascii (if b then "true" else "false"))
  | .number n => .ok (f.text n)
  | .negativeZero => .ok (f.text f.zero)
  | .nonFinite => .error "non-finite number is not canonicalizable"
  | .string s => .ok (quoted s)
  | .undefined => .error "undefined is not canonicalizable"
  | .array items => do
      let parts ← canonicalItems f items
      .ok (91::join parts ++ [93])
  | .object members => do
      let parts ← canonicalMembers f members
      .ok (123::join ((parts.insertionSort keyOrder).map Prod.snd) ++ [125])

def canonicalItems (f : NumberFormat N) : List (Value N) → Except String (List Text)
  | [] => .ok []
  | .undefined::rest => do
      let tail ← canonicalItems f rest
      .ok (ascii "null"::tail)
  | v::rest => do
      let head ← canonicalJson f v
      let tail ← canonicalItems f rest
      .ok (head::tail)

def canonicalMembers (f : NumberFormat N) :
    List (Text × Value N) → Except String (List (Text × Text))
  | [] => .ok []
  | (_,.undefined)::rest => canonicalMembers f rest
  | (key,v)::rest => do
      let head ← canonicalJson f v
      let tail ← canonicalMembers f rest
      .ok ((key,quoted key ++ 58::head)::tail)
end

-- Equal up to the order of keys, undefined members and items, and the sign of zero.
inductive Same (zero : N) : Value N → Value N → Prop where
  | refl (v) : Same zero v v
  | symm {v w} : Same zero v w → Same zero w v
  | trans {u v w} : Same zero u v → Same zero v w → Same zero u w
  | keys {members others} : members.Perm others → Same zero (.object members) (.object others)
  | member {v w} (front key back) : Same zero v w →
      Same zero (.object (front ++ (key,v)::back)) (.object (front ++ (key,w)::back))
  | item {v w} (front back) : Same zero v w →
      Same zero (.array (front ++ v::back)) (.array (front ++ w::back))
  | undefinedMember (front key back) :
      Same zero (.object (front ++ (key,.undefined)::back)) (.object (front ++ back))
  | undefinedItem (front back) :
      Same zero (.array (front ++ .undefined::back)) (.array (front ++ .null::back))
  | negativeZero : Same zero .negativeZero (.number zero)

mutual
def finite : Value N → Bool
  | .nonFinite => false
  | .array items => finiteItems items
  | .object members => finiteMembers members
  | _ => true

def finiteItems : List (Value N) → Bool
  | [] => true
  | v::rest => finite v && finiteItems rest

def finiteMembers : List (Text × Value N) → Bool
  | [] => true
  | (_,v)::rest => finite v && finiteMembers rest
end

def defined : Value N → Bool
  | .undefined => false
  | _ => true

mutual
def Keyed : Value N → Prop
  | .array items => KeyedItems items
  | .object members => ((members.filter fun m => defined m.2).map Prod.fst).Nodup ∧
      KeyedMembers members
  | _ => True

def KeyedItems : List (Value N) → Prop
  | [] => True
  | v::rest => Keyed v ∧ KeyedItems rest

def KeyedMembers : List (Text × Value N) → Prop
  | [] => True
  | (_,v)::rest => Keyed v ∧ KeyedMembers rest
end

mutual
def normal (zero : N) : Value N → Value N
  | .negativeZero => .number zero
  | .array items => .array (normalItems zero items)
  | .object members => .object ((normalMembers zero members).insertionSort keyOrder)
  | v => v

def normalItems (zero : N) : List (Value N) → List (Value N)
  | [] => []
  | .undefined::rest => .null::normalItems zero rest
  | v::rest => normal zero v::normalItems zero rest

def normalMembers (zero : N) : List (Text × Value N) → List (Text × Value N)
  | [] => []
  | (_,.undefined)::rest => normalMembers zero rest
  | (key,v)::rest => (key,normal zero v)::normalMembers zero rest
end

def normalItem (zero : N) (v : Value N) : Value N := if defined v then normal zero v else .null

section
variable (zero : N)

theorem normalItemsMap (items : List (Value N)) :
    normalItems zero items = items.map (normalItem zero) := by
  induction items with
  | nil => rfl
  | cons v rest ih => cases v <;> simp [normalItems,normalItem,defined,ih]

theorem normalMembersMap (members : List (Text × Value N)) :
    normalMembers zero members =
      (members.filter fun m => defined m.2).map fun m => (m.1,normal zero m.2) := by
  induction members with
  | nil => rfl
  | cons member rest ih =>
    obtain ⟨key,v⟩ := member
    cases v <;> simp [normalMembers,defined,ih]

theorem keyedItemsAll (items : List (Value N)) : KeyedItems items ↔ ∀ v ∈ items, Keyed v := by
  induction items with
  | nil => simp [KeyedItems]
  | cons v rest ih => simp [KeyedItems,ih]

theorem keyedMembersAll (members : List (Text × Value N)) :
    KeyedMembers members ↔ ∀ m ∈ members, Keyed m.2 := by
  induction members with
  | nil => simp [KeyedMembers]
  | cons member rest ih => simp [KeyedMembers,ih]

theorem normalItemsDefined {v : Value N} (isDefined : defined v = true) (rest : List (Value N)) :
    normalItems zero (v::rest) = normal zero v::normalItems zero rest := by
  cases v with
  | undefined => cases isDefined
  | _ => rw [normalItems]; simp

theorem normalMembersDefined {v : Value N} (isDefined : defined v = true) (key : Text)
    (rest : List (Text × Value N)) :
    normalMembers zero ((key,v)::rest) = (key,normal zero v)::normalMembers zero rest := by
  cases v with
  | undefined => cases isDefined
  | _ => rw [normalMembers]; simp

theorem plainMembersAll (members : List (Text × Value N)) :
    PlainMembers members ↔ ∀ m ∈ members, Plain m.2 := by
  induction members with
  | nil => simp [PlainMembers]
  | cons member rest ih => simp [PlainMembers,ih]

theorem definedNormal (v : Value N) : defined (normal zero v) = defined v := by
  cases v <;> rfl

end

section
variable {f : NumberFormat N}

theorem okMap {α β : Type} {m : Except String α} {g : α → β} {a : α} (same : m = .ok a) :
    (m >>= fun a => .ok (g a) : Except String β) = .ok (g a) := by
  rw [same]
  rfl

theorem itemsDefined {v : Value N} (isDefined : defined v = true) (rest : List (Value N)) :
    canonicalItems f (v::rest) = (canonicalJson f v >>= fun head =>
      canonicalItems f rest >>= fun tail => .ok (head::tail)) := by
  cases v with
  | undefined => cases isDefined
  | _ => rw [canonicalItems]; simp

theorem membersDefined {v : Value N} (isDefined : defined v = true) (key : Text)
    (rest : List (Text × Value N)) : canonicalMembers f ((key,v)::rest) =
      (canonicalJson f v >>= fun head => canonicalMembers f rest >>= fun tail =>
        .ok ((key,quoted key ++ 58::head)::tail)) := by
  cases v with
  | undefined => cases isDefined
  | _ => rw [canonicalMembers]; simp

theorem undefinedOf {v : Value N} (isUndefined : defined v = false) : v = .undefined := by
  cases v with
  | undefined => rfl
  | _ => cases isUndefined

theorem writeMembersMap (members : List (Text × Value N)) :
    writeMembers f members = members.map fun m => quoted m.1 ++ 58::write f m.2 := by
  induction members with
  | nil => rfl
  | cons member rest ih => rw [writeMembers,ih,List.map_cons]

mutual
theorem canonicalWrites (v : Value N) (isFinite : finite v = true) (isDefined : defined v = true) :
    canonicalJson f v = .ok (write f (normal f.zero v)) := by
  cases v with
  | undefined => cases isDefined
  | nonFinite => cases isFinite
  | null | boolean | number | negativeZero | string => rfl
  | array items => exact okMap (canonicalItemsWrite items isFinite)
  | object members =>
    have sorted := List.map_insertionSort keyOrder keyOrder
      (fun m : Text × Value N => (m.1,quoted m.1 ++ 58::write f m.2)) (normalMembers f.zero members)
      fun _ _ _ _ => Iff.rfl
    rw [canonicalJson,okMap (canonicalMembersWrite members isFinite),← sorted,normal,write,
      writeMembersMap,List.map_map]
    rfl

theorem canonicalItemsWrite (items : List (Value N)) (isFinite : finiteItems items = true) :
    canonicalItems f items = .ok (writeItems f (normalItems f.zero items)) := by
  cases items with
  | nil => rfl
  | cons v rest =>
    simp only [finiteItems,Bool.and_eq_true] at isFinite
    have tail := canonicalItemsWrite rest isFinite.2
    cases held : defined v with
    | false =>
      cases undefinedOf held
      exact okMap tail
    | true =>
      rw [itemsDefined held,canonicalWrites v isFinite.1 held,normalItemsDefined _ held]
      exact okMap tail

theorem canonicalMembersWrite (members : List (Text × Value N))
    (isFinite : finiteMembers members = true) :
    canonicalMembers f members = .ok ((normalMembers f.zero members).map fun m =>
      (m.1,quoted m.1 ++ 58::write f m.2)) := by
  cases members with
  | nil => rfl
  | cons member rest =>
    obtain ⟨key,v⟩ := member
    simp only [finiteMembers,Bool.and_eq_true] at isFinite
    have tail := canonicalMembersWrite rest isFinite.2
    cases held : defined v with
    | false =>
      cases undefinedOf held
      exact tail
    | true =>
      rw [membersDefined held,canonicalWrites v isFinite.1 held,normalMembersDefined _ held]
      exact okMap tail
end

def nonFiniteError : String := "non-finite number is not canonicalizable"

mutual
theorem canonicalRejects (v : Value N) (infinite : finite v = false) :
    canonicalJson f v = .error nonFiniteError := by
  cases v with
  | undefined | null | boolean | number | negativeZero | string => cases infinite
  | nonFinite => rfl
  | array items => rw [canonicalJson,canonicalItemsReject items infinite]; rfl
  | object members => rw [canonicalJson,canonicalMembersReject members infinite]; rfl

theorem canonicalItemsReject (items : List (Value N)) (infinite : finiteItems items = false) :
    canonicalItems f items = .error nonFiniteError := by
  cases items with
  | nil => cases infinite
  | cons v rest =>
    cases held : defined v with
    | false =>
      cases undefinedOf held
      rw [canonicalItems,canonicalItemsReject rest infinite]
      rfl
    | true =>
      rw [itemsDefined held]
      cases isFinite : finite v with
      | false => rw [canonicalRejects v isFinite]; rfl
      | true =>
        rw [canonicalWrites v isFinite held,
          canonicalItemsReject rest (by simpa [finiteItems,isFinite] using infinite)]
        rfl

theorem canonicalMembersReject (members : List (Text × Value N))
    (infinite : finiteMembers members = false) :
    canonicalMembers f members = .error nonFiniteError := by
  cases members with
  | nil => cases infinite
  | cons member rest =>
    obtain ⟨key,v⟩ := member
    cases held : defined v with
    | false =>
      cases undefinedOf held
      rw [canonicalMembers,canonicalMembersReject rest infinite]
    | true =>
      rw [membersDefined held]
      cases isFinite : finite v with
      | false => rw [canonicalRejects v isFinite]; rfl
      | true =>
        rw [canonicalWrites v isFinite held,
          canonicalMembersReject rest (by simpa [finiteMembers,isFinite] using infinite)]
        rfl
end

mutual
theorem normalPlain (zero : N) (v : Value N) (isFinite : finite v = true)
    (isDefined : defined v = true) (keyed : Keyed v) : Plain (normal zero v) := by
  cases v with
  | undefined => cases isDefined
  | nonFinite => cases isFinite
  | null | boolean | number | negativeZero | string => trivial
  | array items => exact normalItemsPlain zero items isFinite keyed
  | object members =>
    have sorted := List.perm_insertionSort keyOrder (normalMembers zero members)
    refine ⟨(sorted.map Prod.fst).nodup_iff.mpr ?_,?_⟩
    · rw [normalMembersMap,List.map_map]
      exact keyed.1
    · rw [plainMembersAll]
      intro m mem
      exact (plainMembersAll _).mp (normalMembersPlain zero members isFinite keyed.2) m
        (sorted.mem_iff.mp mem)

theorem normalItemsPlain (zero : N) (items : List (Value N)) (isFinite : finiteItems items = true)
    (keyed : KeyedItems items) : PlainItems (normalItems zero items) := by
  cases items with
  | nil => trivial
  | cons v rest =>
    simp only [finiteItems,Bool.and_eq_true] at isFinite
    have tail := normalItemsPlain zero rest isFinite.2 keyed.2
    cases held : defined v with
    | false =>
      cases undefinedOf held
      exact ⟨trivial,tail⟩
    | true =>
      rw [normalItemsDefined _ held]
      exact ⟨normalPlain zero v isFinite.1 held keyed.1,tail⟩

theorem normalMembersPlain (zero : N) (members : List (Text × Value N))
    (isFinite : finiteMembers members = true) (keyed : KeyedMembers members) :
    PlainMembers (normalMembers zero members) := by
  cases members with
  | nil => trivial
  | cons member rest =>
    obtain ⟨key,v⟩ := member
    simp only [finiteMembers,Bool.and_eq_true] at isFinite
    have tail := normalMembersPlain zero rest isFinite.2 keyed.2
    cases held : defined v with
    | false =>
      cases undefinedOf held
      exact tail
    | true =>
      rw [normalMembersDefined _ held]
      exact ⟨normalPlain zero v isFinite.1 held keyed.1,tail⟩
end

mutual
theorem sameNormal (zero : N) (v : Value N) : Same zero v (normal zero v) := by
  cases v with
  | undefined | null | boolean | number | nonFinite | string => exact .refl _
  | negativeZero => exact .negativeZero
  | array items => exact sameNormalItems zero items []
  | object members =>
    exact .trans (sameNormalMembers zero members [])
      (.keys (List.perm_insertionSort keyOrder _).symm)

theorem sameNormalItems (zero : N) (items front : List (Value N)) :
    Same zero (.array (front ++ items)) (.array (front ++ normalItems zero items)) := by
  cases items with
  | nil => exact .refl _
  | cons v rest =>
    cases held : defined v with
    | false =>
      cases undefinedOf held
      have tail := sameNormalItems zero rest (front ++ [.null])
      rw [List.append_assoc,List.append_assoc] at tail
      exact .trans (.undefinedItem front rest) tail
    | true =>
      have tail := sameNormalItems zero rest (front ++ [normal zero v])
      rw [List.append_assoc,List.append_assoc] at tail
      rw [normalItemsDefined _ held]
      exact .trans (.item front rest (sameNormal zero v)) tail

theorem sameNormalMembers (zero : N) (members front : List (Text × Value N)) :
    Same zero (.object (front ++ members)) (.object (front ++ normalMembers zero members)) := by
  cases members with
  | nil => exact .refl _
  | cons member rest =>
    obtain ⟨key,v⟩ := member
    cases held : defined v with
    | false =>
      cases undefinedOf held
      exact .trans (.undefinedMember front key rest) (sameNormalMembers zero rest front)
    | true =>
      have tail := sameNormalMembers zero rest (front ++ [(key,normal zero v)])
      rw [List.append_assoc,List.append_assoc] at tail
      rw [normalMembersDefined _ held]
      exact .trans (.member front key rest (sameNormal zero v)) tail
end

theorem finiteItemsAll (items : List (Value N)) : finiteItems items = items.all finite := by
  induction items with
  | nil => rfl
  | cons v rest ih => rw [finiteItems,List.all_cons,ih]

theorem finiteMembersAll (members : List (Text × Value N)) :
    finiteMembers members = members.all fun m => finite m.2 := by
  induction members with
  | nil => rfl
  | cons member rest ih => rw [finiteMembers,List.all_cons,ih]

theorem sortedSame {members others : List (Text × Value N)} (perm : members.Perm others)
    (unique : (members.map Prod.fst).Nodup) :
    members.insertionSort keyOrder = others.insertionSort keyOrder := by
  have left := List.perm_insertionSort keyOrder members
  have right := List.perm_insertionSort keyOrder others
  refine List.Perm.eq_of_pairwise ?_ (List.pairwise_insertionSort keyOrder members)
    (List.pairwise_insertionSort keyOrder others) (left.trans (perm.trans right.symm))
  intro a b inA inB first next
  exact List.inj_on_of_nodup_map unique (left.mem_iff.mp inA)
    (perm.mem_iff.mpr (right.mem_iff.mp inB)) (le_antisymm first next)

structure Alike (zero : N) (v w : Value N) : Prop where
  defined : defined v = defined w
  finite : finite v = finite w
  keyed : Keyed v ↔ Keyed w
  normal : Keyed v → normal zero v = normal zero w

theorem Alike.symm {zero : N} {v w : Value N} (alike : Alike zero v w) : Alike zero w v :=
  ⟨alike.defined.symm,alike.finite.symm,alike.keyed.symm,fun keyed =>
    (alike.normal (alike.keyed.mpr keyed)).symm⟩

theorem Alike.trans {zero : N} {u v w : Value N} (first : Alike zero u v)
    (next : Alike zero v w) : Alike zero u w :=
  ⟨first.defined.trans next.defined,first.finite.trans next.finite,first.keyed.trans next.keyed,
    fun keyed => (first.normal keyed).trans (next.normal (first.keyed.mp keyed))⟩

theorem alikeObjects {zero : N} {members others : List (Text × Value N)}
    (finite_ : finiteMembers members = finiteMembers others)
    (names : ((members.filter fun m => defined m.2).map Prod.fst).Perm
      ((others.filter fun m => defined m.2).map Prod.fst))
    (keyed : KeyedMembers members ↔ KeyedMembers others)
    (normal_ : KeyedMembers members →
      (normalMembers zero members).Perm (normalMembers zero others)) :
    Alike zero (.object members) (.object others) := by
  refine ⟨rfl,finite_,and_congr names.nodup_iff keyed,fun unique => ?_⟩
  refine congrArg Value.object (sortedSame (normal_ unique.2) ?_)
  rw [normalMembersMap,List.map_map]
  exact unique.1

theorem sameAlike {zero : N} {v w : Value N} (same : Same zero v w) : Alike zero v w := by
  induction same with
  | refl v => exact ⟨rfl,rfl,Iff.rfl,fun _ => rfl⟩
  | symm _ ih => exact ih.symm
  | trans _ _ first next => exact first.trans next
  | @keys members others perm =>
    refine alikeObjects ?_ ((perm.filter _).map _) ?_ fun _ => ?_
    · rw [finiteMembersAll,finiteMembersAll]
      exact perm.all_eq
    · rw [keyedMembersAll,keyedMembersAll]
      exact forall_congr' fun m => imp_congr_left perm.mem_iff
    · rw [normalMembersMap,normalMembersMap]
      exact (perm.filter _).map _
  | @member v w front key back _ ih =>
    refine alikeObjects ?_ ?_ ?_ fun keyed => ?_
    · simp only [finiteMembersAll,List.all_append,List.all_cons,ih.finite]
    · simp only [List.filter_append,List.filter_cons,ih.defined]
      split
      · simp only [List.map_append,List.map_cons]
        exact .refl _
      · exact .refl _
    · simp only [keyedMembersAll,List.mem_append,List.mem_cons,or_imp,forall_and,forall_eq,
        ih.keyed]
    · have own : Keyed v := (keyedMembersAll _).mp keyed (key,v) (by simp)
      simp only [normalMembersMap,List.filter_append,List.filter_cons,ih.defined]
      split
      · simp only [List.map_append,List.map_cons,ih.normal own]
        exact .refl _
      · exact .refl _
  | @item v w front back _ ih =>
    refine ⟨rfl,?_,?_,fun keyed => ?_⟩
    · simp only [finite,finiteItemsAll,List.all_append,List.all_cons,ih.finite]
    · simp only [Keyed,keyedItemsAll,List.mem_append,List.mem_cons,or_imp,forall_and,forall_eq,
        ih.keyed]
    · have own : Keyed v := (keyedItemsAll _).mp keyed v (by simp)
      simp only [normal,normalItemsMap,List.map_append,List.map_cons,normalItem,ih.defined,
        ih.normal own]
  | undefinedMember front key back =>
    refine alikeObjects ?_ ?_ ?_ fun _ => ?_
    · simp [finiteMembersAll,finite]
    · simp [defined]
    · simp [keyedMembersAll,or_imp,forall_and,Keyed]
    · simp [normalMembersMap,defined]
  | undefinedItem front back =>
    refine ⟨rfl,?_,?_,fun _ => ?_⟩
    · simp [finite,finiteItemsAll]
    · simp [Keyed,keyedItemsAll,or_imp,forall_and]
    · simp [normal,normalItemsMap,normalItem,defined]
  | negativeZero => exact ⟨rfl,rfl,Iff.rfl,fun _ => rfl⟩

theorem canonicalValue {v : Value N} {text : Text} (written : canonicalJson f v = .ok text) :
    finite v = true ∧ defined v = true := by
  constructor
  · cases isFinite : finite v with
    | true => rfl
    | false => rw [canonicalRejects v isFinite] at written; cases written
  · cases v with
    | undefined => cases written
    | _ => rfl

theorem canonicalParses (lawful : f.Lawful) {v : Value N} {text : Text} (keyed : Keyed v)
    (written : canonicalJson f v = .ok text) :
    ∃ u, parse f text = some u ∧ Plain u ∧ Same f.zero v u := by
  obtain ⟨isFinite,isDefined⟩ := canonicalValue written
  rw [canonicalWrites v isFinite isDefined] at written
  cases written
  have plain := normalPlain f.zero v isFinite isDefined keyed
  exact ⟨_,parseWrite lawful _ plain,plain,sameNormal f.zero v⟩

theorem canonicalSame {v w : Value N} (keyed : Keyed v) (same : Same f.zero v w) :
    canonicalJson f v = canonicalJson f w := by
  have alike := sameAlike same
  cases isFinite : finite v with
  | false => rw [canonicalRejects v isFinite,canonicalRejects w (alike.finite ▸ isFinite)]
  | true =>
    cases isDefined : defined v with
    | false =>
      have left := undefinedOf isDefined
      have right := undefinedOf (alike.defined.symm.trans isDefined)
      rw [left,right]
    | true => rw [canonicalWrites v isFinite isDefined,alike.normal keyed,
        canonicalWrites w (alike.finite ▸ isFinite) (alike.defined ▸ isDefined)]

-- The text depends on what the values share, parses to it, and has no two readings; an
-- infinity or NaN has none.
theorem canonicalFaithful (lawful : f.Lawful) :
    (∀ v w, Keyed v → Same f.zero v w → canonicalJson f v = canonicalJson f w) ∧
    (∀ v, Keyed v → defined v = true → finite v = true → ∃ text u,
      canonicalJson f v = .ok text ∧ parse f text = some u ∧ Plain u ∧ Same f.zero v u ∧
        canonicalJson f u = .ok text) ∧
    (∀ v w text, Keyed v → Keyed w → canonicalJson f v = .ok text →
      canonicalJson f w = .ok text → Same f.zero v w) ∧
    ∀ v, finite v = false → canonicalJson f v = .error nonFiniteError := by
  refine ⟨fun v w keyed same => canonicalSame keyed same,?_,?_,canonicalRejects⟩
  · intro v keyed isDefined isFinite
    have written := canonicalWrites (f := f) v isFinite isDefined
    obtain ⟨u,parsed,plain,same⟩ := canonicalParses lawful keyed written
    exact ⟨_,u,written,parsed,plain,same,(canonicalSame keyed same).symm.trans written⟩
  · intro v w text keyedV keyedW writtenV writtenW
    obtain ⟨u,parsed,_,sameV⟩ := canonicalParses lawful keyedV writtenV
    obtain ⟨u',parsed',_,sameW⟩ := canonicalParses lawful keyedW writtenW
    cases parsed.symm.trans parsed'
    exact sameV.trans sameW.symm

def digitFormat : NumberFormat (Fin 10) where
  zero := 0
  text n := [Fin.ofNat 65536 (48 + n.val)]
  read
    | [c] => .number (Fin.ofNat 10 (c.val - 48))
    | _ => .nonFinite

theorem digitLawful : digitFormat.Lawful where
  number := by decide
  read n := congrArg Value.number (by revert n; decide)

theorem canonicalFaithfulDigit : canonicalJson digitFormat
      (.object [(ascii "b",.undefined),(ascii "a",.array [.undefined,.number 7])]) =
    canonicalJson digitFormat (.object [(ascii "a",.array [.null,.number 7])]) :=
  (canonicalFaithful digitLawful).1 _ _ ⟨by decide,trivial,⟨trivial,trivial,trivial⟩,trivial⟩
    (.trans (.undefinedMember [] _ _) (.member [] _ [] (.undefinedItem [] _)))

end

end ControlCenter.CanonicalForm
