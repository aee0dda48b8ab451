import ControlCenter.CanonicalForm
import Mathlib.Data.List.TakeWhile

/-! The canonical texts of envelopes and payloads as sequences of UTF-16 code units: the
text of a value is that of its counterpart there, and no two values share one. -/
namespace ControlCenter.CanonicalTexts
open JsonValue AccpEnvelope SealedEnvelopes JsonText CanonicalForm

def units (s : String) : Text := (utf16 s).map (Fin.ofNat 65536)

mutual
def value : Json → Value Rat
  | .undefined => .undefined
  | .null => .null
  | .boolean b => .boolean b
  | .number (.finite q) => .number q
  | .number .negativeZero => .negativeZero
  | .number (.infinity _) | .number .nan => .nonFinite
  | .string s => .string (units s)
  | .array items => .array (values items)
  | .object members => .object (memberValues members)

def values : List Json → List (Value Rat)
  | [] => []
  | v::rest => value v::values rest

def memberValues : List (String × Json) → List (Text × Value Rat)
  | [] => []
  | (k,v)::rest => (units k,value v)::memberValues rest
end

def charUnits (c : Char) : Text :=
  (if c.toNat < 0x10000 then [c.toNat]
    else [0xd800 + (c.toNat - 0x10000) / 0x400,0xdc00 + (c.toNat - 0x10000) % 0x400]).map
    (Fin.ofNat 65536)

def listUnits (cs : List Char) : Text := cs.flatMap charUnits

theorem unitsList (s : String) : units s = listUnits s.toList := by
  unfold units utf16 listUnits
  rw [List.map_flatMap]
  rfl

@[simp] theorem listUnitsAppend (front back : List Char) :
    listUnits (front ++ back) = listUnits front ++ listUnits back := List.flatMap_append

@[simp] theorem listUnitsCons (c : Char) (rest : List Char) :
    listUnits (c::rest) = charUnits c ++ listUnits rest := rfl

@[simp] theorem unitsAppend (s t : String) : units (s ++ t) = units s ++ units t := by
  simp [unitsList]

theorem charBelow (c : Char) (small : c.toNat < 0x10000) :
    charUnits c = [Fin.ofNat 65536 c.toNat] ∧ high (Fin.ofNat 65536 c.toNat) = false ∧
      low (Fin.ofNat 65536 c.toNat) = false ∧ (Fin.ofNat 65536 c.toNat).val = c.toNat := by
  have exact_ : (Fin.ofNat 65536 c.toNat).val = c.toNat := Nat.mod_eq_of_lt small
  have valid := c.valid
  have scalar : c.toNat < 0xd800 ∨ 0xdfff < c.toNat := by
    rcases valid with before | ⟨after,_⟩
    · exact .inl before
    · exact .inr after
  refine ⟨by simp [charUnits,small],?_,?_,exact_⟩
  · simp only [high,exact_,Bool.and_eq_false_iff,decide_eq_false_iff_not]
    omega
  · simp only [low,exact_,Bool.and_eq_false_iff,decide_eq_false_iff_not]
    omega

theorem charAbove (c : Char) (large : ¬c.toNat < 0x10000) : ∃ a b, charUnits c = [a,b] ∧
    high a = true ∧ low b = true ∧ a.val = 0xd800 + (c.toNat - 0x10000) / 0x400 ∧
      b.val = 0xdc00 + (c.toNat - 0x10000) % 0x400 := by
  have bound : c.toNat < 0x110000 := by
    rcases c.valid with before | ⟨_,last⟩
    · have : c.toNat < 0xd800 := before
      omega
    · exact last
  have first : (Fin.ofNat 65536 (0xd800 + (c.toNat - 0x10000) / 0x400)).val =
      0xd800 + (c.toNat - 0x10000) / 0x400 := Nat.mod_eq_of_lt (by omega)
  have second : (Fin.ofNat 65536 (0xdc00 + (c.toNat - 0x10000) % 0x400)).val =
      0xdc00 + (c.toNat - 0x10000) % 0x400 := Nat.mod_eq_of_lt (by omega)
  refine ⟨_,_,by rw [charUnits,if_neg large]; rfl,?_,?_,first,second⟩
  · simp only [high,first,Bool.and_eq_true,decide_eq_true_eq]
    omega
  · simp only [low,second,Bool.and_eq_true,decide_eq_true_eq]
    omega

theorem listUnitsInjective {cs ds : List Char} (same : listUnits cs = listUnits ds) : cs = ds := by
  have filled (c : Char) : charUnits c ≠ [] := by
    unfold charUnits
    split <;> simp
  induction cs generalizing ds with
  | nil =>
    cases ds with
    | nil => rfl
    | cons d rest => exact absurd (List.append_eq_nil_iff.mp same.symm).1 (filled d)
  | cons c rest ih =>
    cases ds with
    | nil => exact absurd (List.append_eq_nil_iff.mp same).1 (filled c)
    | cons d others =>
      rw [listUnitsCons,listUnitsCons] at same
      by_cases smallC : c.toNat < 0x10000
      · obtain ⟨oneC,singleC,_,exactC⟩ := charBelow c smallC
        by_cases smallD : d.toNat < 0x10000
        · obtain ⟨oneD,_,_,exactD⟩ := charBelow d smallD
          rw [oneC,oneD,List.singleton_append,List.singleton_append] at same
          obtain ⟨head,tail⟩ := List.cons.inj same
          have equal : c.toNat = d.toNat := by rw [← exactC,head,exactD]
          rw [Char.toNat_inj.mp equal,ih tail]
        · obtain ⟨a,b,twoD,highD,_⟩ := charAbove d smallD
          rw [oneC,twoD,List.singleton_append] at same
          rw [(List.cons.inj same).1,highD] at singleC
          cases singleC
      · obtain ⟨a,b,twoC,highC,_,firstC,secondC⟩ := charAbove c smallC
        by_cases smallD : d.toNat < 0x10000
        · obtain ⟨oneD,singleD,_,_⟩ := charBelow d smallD
          rw [twoC,oneD,List.singleton_append] at same
          rw [← (List.cons.inj same).1,highC] at singleD
          cases singleD
        · obtain ⟨a',b',twoD,_,_,firstD,secondD⟩ := charAbove d smallD
          rw [twoC,twoD] at same
          obtain ⟨head,tail⟩ := List.cons.inj same
          obtain ⟨next,tail⟩ := List.cons.inj tail
          have equal : c.toNat = d.toNat := by
            rw [head,firstD] at firstC
            rw [next,secondD] at secondC
            omega
          rw [Char.toNat_inj.mp equal,ih tail]

theorem unitsInjective {s t : String} (same : units s = units t) : s = t := by
  rw [unitsList,unitsList] at same
  exact String.toList_injective (listUnitsInjective same)

theorem escapeSingle {a : CodeUnit} (single : high a = false) (rest : Text) :
    escape (a::rest) = escapeUnit a ++ escape rest := by
  cases rest with
  | nil => simp [escape]
  | cons b rest => simp [escape,single]

theorem escapedAscii : ∀ n : Fin 128,
    listUnits (escaped (Char.ofNat n)) = escapeUnit (Fin.ofNat 65536 n) := by
  decide +kernel

theorem escapedOther {c : Char} (large : ¬c.toNat < 128) : escaped c = [c] := by
  have other (d : Char) (small : d.toNat < 128) : c ≠ d := by
    rintro rfl
    exact large small
  unfold escaped
  rw [if_neg (other _ (by decide)),if_neg (other _ (by decide)),if_neg (by omega),
    if_neg (by omega),if_neg (other _ (by decide)),if_neg (other _ (by decide)),
    if_neg (other _ (by decide)),if_neg (by omega),if_neg (by omega)]

theorem escapeUnitOther {u : CodeUnit} (large : ¬u.val < 128) (scalar : high u = false)
    (scalar' : low u = false) : escapeUnit u = [u] := by
  have other (d : CodeUnit) (small : d.val < 128) : u ≠ d := by
    rintro rfl
    exact large small
  unfold escapeUnit
  rw [if_neg (other _ (by decide)),if_neg (other _ (by decide)),if_neg (other _ (by decide)),
    if_neg (other _ (by decide)),if_neg (other _ (by decide)),if_neg (other _ (by decide)),
    if_neg (other _ (by decide)),if_neg]
  simp only [scalar,scalar',Bool.or_false,decide_eq_true_eq]
  omega

theorem escapedUnits (cs : List Char) :
    listUnits (cs.flatMap escaped) = escape (listUnits cs) := by
  induction cs with
  | nil => rfl
  | cons c rest ih =>
    rw [List.flatMap_cons,listUnitsAppend,ih,listUnitsCons]
    by_cases small : c.toNat < 0x10000
    · obtain ⟨one,single,scalar,exact_⟩ := charBelow c small
      rw [one,List.singleton_append,escapeSingle single]
      congr 1
      by_cases ascii_ : c.toNat < 128
      · have each := escapedAscii ⟨c.toNat,ascii_⟩
        rw [Char.ofNat_toNat] at each
        exact each
      · rw [escapedOther ascii_,escapeUnitOther (by rw [exact_]; exact ascii_) single scalar]
        simp [listUnits,one]
    · obtain ⟨a,b,two,first,second,_,_⟩ := charAbove c small
      rw [escapedOther (by omega)]
      simp [listUnits,two,escape,first,second]

theorem quotedUnits (s : String) : units (AccpEnvelope.quoted s) = JsonText.quoted (units s) := by
  unfold AccpEnvelope.quoted JsonText.quoted
  rw [unitsList,String.toList_ofList,listUnitsAppend,listUnitsAppend,escapedUnits,unitsList]
  rfl

theorem joinedUnits (parts : List String) :
    units (String.intercalate "," parts) = join (parts.map units) := by
  induction parts with
  | nil => rfl
  | cons part rest ih =>
    cases rest with
    | nil => simp [join]
    | cons next rest =>
      rw [String.intercalate_cons_cons,unitsAppend,unitsAppend,ih]
      simp only [List.map_cons,join,List.append_assoc]
      rfl

theorem utf16Small (s : String) : ∀ n ∈ utf16 s, n < 65536 := by
  intro n listed
  obtain ⟨c,_,own⟩ := List.mem_flatMap.mp listed
  have bound : c.toNat < 0x110000 := by
    rcases c.valid with before | ⟨_,last⟩
    · have : c.toNat < 0xd800 := before
      omega
    · exact last
  split at own
  · have same : n = c.toNat := by simpa using own
    omega
  · simp only [List.mem_cons,List.not_mem_nil,or_false] at own
    omega

theorem unitsLt {a b : List Nat} (left : ∀ n ∈ a, n < 65536) (right : ∀ n ∈ b, n < 65536) :
    a < b ↔ a.map (Fin.ofNat 65536) < b.map (Fin.ofNat 65536) := by
  induction a generalizing b with
  | nil => cases b <;> simp
  | cons m rest ih =>
    cases b with
    | nil => simp
    | cons n others =>
      have first : (Fin.ofNat 65536 m).val = m := Nat.mod_eq_of_lt (left m List.mem_cons_self)
      have second : (Fin.ofNat 65536 n).val = n := Nat.mod_eq_of_lt (right n List.mem_cons_self)
      have tails := ih (fun k listed => left k (List.mem_cons_of_mem _ listed))
        (fun k listed => right k (List.mem_cons_of_mem _ listed))
      rw [List.map_cons,List.map_cons,List.cons_lt_cons_iff,List.cons_lt_cons_iff,tails,Fin.lt_def,
        Fin.ext_iff,first,second]

theorem unitsLe {a b : List Nat} (left : ∀ n ∈ a, n < 65536) (right : ∀ n ∈ b, n < 65536) :
    a ≤ b ↔ a.map (Fin.ofNat 65536) ≤ b.map (Fin.ofNat 65536) := by
  rw [← not_lt,unitsLt right left,not_lt]

def pairUnits (m : List Nat × String) : Text × Text := (m.1.map (Fin.ofNat 65536),units m.2)

section
variable (p : Platform) (read : Text → Value Rat)

def numberFormat : NumberFormat Rat := ⟨0,fun q => units (finiteText p q),read⟩

theorem memberKeys (members : List (String × Json)) {parts : List (List Nat × String)}
    (written : AccpEnvelope.canonicalMembers p members = .ok parts) :
    ∀ m ∈ parts, ∀ n ∈ m.1, n < 65536 := by
  induction members generalizing parts with
  | nil =>
    cases written
    exact fun _ listed => nomatch listed
  | cons member rest ih =>
    obtain ⟨k,v⟩ := member
    cases v with
    | undefined => exact ih written
    | null | boolean | number | string | array | object =>
      rw [AccpEnvelope.canonicalMembers] at written
      · obtain ⟨head,_,written⟩ := exceptBind written
        obtain ⟨tail,own,written⟩ := exceptBind written
        cases Except.ok.inj written
        intro m listed
        rcases List.mem_cons.mp listed with rfl | listed
        · exact utf16Small k
        · exact ih own m listed
      · exact Json.noConfusion

theorem sortedUnits {parts : List (List Nat × String)} (small : ∀ m ∈ parts, ∀ n ∈ m.1, n < 65536) :
    ((parts.insertionSort AccpEnvelope.keyOrder).map (·.2)).map units =
      ((parts.map pairUnits).insertionSort CanonicalForm.keyOrder).map Prod.snd := by
  have sorted := List.map_insertionSort AccpEnvelope.keyOrder CanonicalForm.keyOrder pairUnits parts
    fun m inM n inN => unitsLe (small m inM) (small n inN)
  rw [← sorted,List.map_map,List.map_map]
  rfl

theorem definedValue {v : Json} (written : v ≠ .undefined) : defined (value v) = true := by
  cases v with
  | undefined => exact absurd rfl written
  | number n => cases n <;> rfl
  | _ => rfl

theorem mapBind {α β γ : Type} (m : Except String α) (g : α → β) (h : β → Except String γ) :
    (m.map g >>= h) = (m >>= fun a => h (g a)) := by
  cases m <;> rfl

mutual
theorem jsonUnits (v : Json) : CanonicalForm.canonicalJson (numberFormat p read) (value v) =
    (AccpEnvelope.canonicalJson p v).map units := by
  cases v with
  | undefined | null => rfl
  | boolean b => cases b <;> rfl
  | number n =>
    cases n with
    | finite q => rfl
    | negativeZero =>
      have zero : finiteText p 0 = "0" := if_pos (by decide)
      exact congrArg (Except.ok ∘ units) zero
    | infinity | nan => rfl
  | string s => exact congrArg Except.ok (quotedUnits s).symm
  | array items =>
    rw [value,CanonicalForm.canonicalJson,itemUnits items,mapBind,AccpEnvelope.canonicalJson]
    cases AccpEnvelope.canonicalItems p items with
    | error => rfl
    | ok parts =>
      refine congrArg Except.ok ?_
      rw [unitsAppend,unitsAppend,joinedUnits]
      rfl
  | object members =>
    rw [value,CanonicalForm.canonicalJson,memberUnits members,mapBind,AccpEnvelope.canonicalJson]
    cases written : AccpEnvelope.canonicalMembers p members with
    | error => rfl
    | ok parts =>
      refine congrArg Except.ok ?_
      rw [unitsAppend,unitsAppend,joinedUnits,sortedUnits (memberKeys p members written)]
      rfl

theorem itemUnits (items : List Json) :
    CanonicalForm.canonicalItems (numberFormat p read) (values items) =
      (AccpEnvelope.canonicalItems p items).map (List.map units) := by
  cases items with
  | nil => rfl
  | cons v rest =>
    have tail := itemUnits rest
    cases v with
    | undefined =>
      rw [values,value,CanonicalForm.canonicalItems,tail,mapBind,AccpEnvelope.canonicalItems]
      cases AccpEnvelope.canonicalItems p rest <;> rfl
    | null | boolean | number | string | array | object =>
      rw [values,itemsDefined (definedValue Json.noConfusion),jsonUnits,tail,
        AccpEnvelope.canonicalItems]
      · simp only [mapBind]
        cases AccpEnvelope.canonicalJson p _ with
        | error => rfl
        | ok head => cases AccpEnvelope.canonicalItems p rest <;> rfl
      · exact Json.noConfusion

theorem memberUnits (members : List (String × Json)) :
    CanonicalForm.canonicalMembers (numberFormat p read) (memberValues members) =
      (AccpEnvelope.canonicalMembers p members).map (List.map pairUnits) := by
  cases members with
  | nil => rfl
  | cons member rest =>
    obtain ⟨k,v⟩ := member
    have tail := memberUnits rest
    cases v with
    | undefined => exact tail
    | null | boolean | number | string | array | object =>
      rw [memberValues,membersDefined (definedValue Json.noConfusion),jsonUnits,tail,
        AccpEnvelope.canonicalMembers]
      · simp only [mapBind]
        cases AccpEnvelope.canonicalJson p _ with
        | error => rfl
        | ok head =>
          cases AccpEnvelope.canonicalMembers p rest with
          | error => rfl
          | ok parts =>
            refine congrArg (fun pair => Except.ok (pair::parts.map pairUnits)) ?_
            refine Prod.ext rfl ?_
            simp only [pairUnits,unitsAppend,quotedUnits,List.append_assoc]
            rfl
      · exact Json.noConfusion
end

end

theorem canonicalFinite {p : Platform} {v : Json} {text : String}
    (written : AccpEnvelope.canonicalJson p v = .ok text) :
    finite (value v) = true ∧ defined (value v) = true := by
  have own := jsonUnits p (fun _ => .null) v
  rw [written] at own
  exact canonicalValue own

theorem sameNormalText {p : Platform} {v w : Json} (finiteV : finite (value v) = true)
    (finiteW : finite (value w) = true) (definedV : defined (value v) = true)
    (same : normal 0 (value v) = normal 0 (value w)) :
    AccpEnvelope.canonicalJson p v = AccpEnvelope.canonicalJson p w := by
  have definedW : defined (value w) = true := by
    rw [← definedNormal 0,← same,definedNormal,definedV]
  have left := jsonUnits p (fun _ => .null) v
  have right := jsonUnits p (fun _ => .null) w
  rw [canonicalWrites _ finiteV definedV] at left
  rw [canonicalWrites _ finiteW definedW] at right
  have joint := left.symm.trans ((congrArg (Except.ok ∘ write _) same).trans right)
  cases writtenV : AccpEnvelope.canonicalJson p v with
  | error => rw [writtenV] at left; cases left
  | ok s =>
    cases writtenW : AccpEnvelope.canonicalJson p w with
    | error => rw [writtenW] at right; cases right
    | ok t =>
      rw [writtenV,writtenW] at joint
      exact congrArg Except.ok (unitsInjective (Except.ok.inj joint))

mutual
theorem imageFinite (v : Json) : finite (value v.image) = true := by
  cases v with
  | number n => cases n <;> rfl
  | array items => exact imageItemsFinite items
  | object members => exact imageMembersFinite members
  | _ => rfl

theorem imageItemsFinite (items : List Json) : finiteItems (values (imageItems items)) = true := by
  cases items with
  | nil => rfl
  | cons v rest =>
    have tail := imageItemsFinite rest
    cases v with
    | undefined => exact tail
    | null | boolean | number | string | array | object =>
      exact Bool.and_eq_true_iff.mpr ⟨imageFinite _,tail⟩

theorem imageMembersFinite (members : List (String × Json)) :
    finiteMembers (memberValues (imageMembers members)) = true := by
  cases members with
  | nil => rfl
  | cons member rest =>
    obtain ⟨k,v⟩ := member
    have tail := imageMembersFinite rest
    cases v with
    | undefined => exact tail
    | null | boolean | number | string | array | object =>
      exact Bool.and_eq_true_iff.mpr ⟨imageFinite _,tail⟩
end

theorem imageDefined {v : Json} (written : v ≠ .undefined) : v.image ≠ .undefined := by
  cases v with
  | undefined => exact absurd rfl written
  | number n => cases n <;> exact Json.noConfusion
  | _ => exact Json.noConfusion

mutual
theorem imageNormal (v : Json) (isFinite : finite (value v) = true) :
    normal 0 (value v.image) = normal 0 (value v) := by
  cases v with
  | number n =>
    cases n with
    | finite | negativeZero => rfl
    | infinity | nan => cases isFinite
  | array items => exact congrArg Value.array (imageItemsNormal items isFinite)
  | object members =>
    exact congrArg (fun m => Value.object (m.insertionSort CanonicalForm.keyOrder))
      (imageMembersNormal members isFinite)
  | _ => rfl

theorem imageItemsNormal (items : List Json) (isFinite : finiteItems (values items) = true) :
    normalItems 0 (values (imageItems items)) = normalItems 0 (values items) := by
  cases items with
  | nil => rfl
  | cons v rest =>
    obtain ⟨own,others⟩ := Bool.and_eq_true_iff.mp isFinite
    have tail := imageItemsNormal rest others
    cases v with
    | undefined => exact congrArg (Value.null::·) tail
    | null | boolean | number | string | array | object =>
      rw [imageItems,values,values,normalItemsDefined 0 (definedValue (imageDefined Json.noConfusion)),
        normalItemsDefined 0 (definedValue Json.noConfusion),imageNormal _ own,tail]
      exact Json.noConfusion

theorem imageMembersNormal (members : List (String × Json))
    (isFinite : finiteMembers (memberValues members) = true) :
    normalMembers 0 (memberValues (imageMembers members)) =
      normalMembers 0 (memberValues members) := by
  cases members with
  | nil => rfl
  | cons member rest =>
    obtain ⟨k,v⟩ := member
    obtain ⟨own,others⟩ := Bool.and_eq_true_iff.mp isFinite
    have tail := imageMembersNormal rest others
    cases v with
    | undefined => exact tail
    | null | boolean | number | string | array | object =>
      rw [imageMembers,memberValues,memberValues,
        normalMembersDefined 0 (definedValue (imageDefined Json.noConfusion)),
        normalMembersDefined 0 (definedValue Json.noConfusion),imageNormal _ own,tail]
      exact Json.noConfusion
end

theorem canonicalImage {p : Platform} {v : Json} {text : String}
    (written : AccpEnvelope.canonicalJson p v = .ok text) :
    AccpEnvelope.canonicalJson p v.image = .ok text := by
  obtain ⟨isFinite,isDefined⟩ := canonicalFinite written
  have same := imageNormal v isFinite
  rw [← written]
  refine sameNormalText (imageFinite v) isFinite ?_ same
  rw [← definedNormal 0,same,definedNormal,isDefined]

theorem memberValuesMap (members : List (String × Json)) :
    memberValues members = members.map fun m => (units m.1,value m.2) := by
  induction members with
  | nil => rfl
  | cons member rest ih => rw [memberValues,ih,List.map_cons]

theorem unitsNodup {names : List String} (unique : names.Nodup) : (names.map units).Nodup :=
  unique.map fun _ _ same => unitsInjective same

mutual
theorem distinctKeyed (v : Json) (distinct : Distinct v) : Keyed (value v) := by
  cases v with
  | number n => cases n <;> trivial
  | array items => exact distinctItemsKeyed items distinct
  | object members =>
    refine ⟨?_,distinctMembersKeyed members distinct.2⟩
    have names : (memberValues members).map Prod.fst = (members.map Prod.fst).map units := by
      rw [memberValuesMap,List.map_map,List.map_map]
      rfl
    have unique : ((memberValues members).map Prod.fst).Nodup := names ▸ unitsNodup distinct.1
    exact unique.sublist (List.filter_sublist.map Prod.fst)
  | _ => trivial

theorem distinctItemsKeyed (items : List Json) (distinct : DistinctItems items) :
    KeyedItems (values items) := by
  cases items with
  | nil => trivial
  | cons v rest => exact ⟨distinctKeyed v distinct.1,distinctItemsKeyed rest distinct.2⟩

theorem distinctMembersKeyed (members : List (String × Json)) (distinct : DistinctMembers members) :
    KeyedMembers (memberValues members) := by
  cases members with
  | nil => trivial
  | cons member rest => exact ⟨distinctKeyed _ distinct.1,distinctMembersKeyed rest distinct.2⟩
end

theorem memNormal {members : List (String × Json)} (unique : (members.map Prod.fst).Nodup)
    {key : Text} {w : Value Rat} : (key,w) ∈ normalMembers 0 (memberValues members) ↔
      ∃ k, key = units k ∧ defined w = true ∧ w = normal 0 (value ((Json.object members).get k)) := by
  rw [normalMembersMap,memberValuesMap]
  simp only [List.mem_map,List.mem_filter]
  constructor
  · rintro ⟨m,⟨⟨⟨k,v⟩,listed,rfl⟩,isDefined⟩,same⟩
    cases same
    refine ⟨k,rfl,(definedNormal 0 _).trans isDefined,?_⟩
    rw [getObject,lookupMember unique listed]
    rfl
  · rintro ⟨k,rfl,isDefined,rfl⟩
    rw [getObject] at isDefined ⊢
    cases held : lookup k members with
    | none => rw [held] at isDefined; cases isDefined
    | some v =>
      rw [held,Option.getD_some,definedNormal] at isDefined
      refine ⟨(units k,value v),⟨⟨(k,v),?_,rfl⟩,isDefined⟩,rfl⟩
      exact memberLooked held

theorem normalNames {members : List (String × Json)} (unique : (members.map Prod.fst).Nodup) :
    ((normalMembers 0 (memberValues members)).map Prod.fst).Nodup := by
  have names : (memberValues members).map Prod.fst = (members.map Prod.fst).map units := by
    rw [memberValuesMap,List.map_map,List.map_map]
    rfl
  have whole : ((memberValues members).map Prod.fst).Nodup := names ▸ unitsNodup unique
  rw [normalMembersMap,List.map_map]
  exact whole.sublist (List.filter_sublist.map Prod.fst)

theorem normalMember {members others : List (String × Json)}
    (unique : (members.map Prod.fst).Nodup) (unique' : (others.map Prod.fst).Nodup)
    (perm : (normalMembers 0 (memberValues members)).Perm (normalMembers 0 (memberValues others)))
    {k : String} (isDefined : defined (normal 0 (value ((Json.object members).get k))) = true) :
    normal 0 (value ((Json.object members).get k)) =
      normal 0 (value ((Json.object others).get k)) := by
  have listed := perm.mem_iff.mp ((memNormal unique).mpr ⟨k,rfl,isDefined,rfl⟩)
  obtain ⟨k',named,_,same⟩ := (memNormal unique').mp listed
  cases unitsInjective named
  exact same

theorem objectNormal {members others : List (String × Json)}
    (unique : (members.map Prod.fst).Nodup) (unique' : (others.map Prod.fst).Nodup) :
    normal 0 (value (.object members)) = normal 0 (value (.object others)) ↔
      ∀ k, normal 0 (value ((Json.object members).get k)) =
        normal 0 (value ((Json.object others).get k)) := by
  constructor
  · intro same k
    have sorted := Value.object.inj same
    have perm : (normalMembers 0 (memberValues members)).Perm
        (normalMembers 0 (memberValues others)) :=
      (List.perm_insertionSort CanonicalForm.keyOrder _).symm.trans
        (sorted ▸ List.perm_insertionSort CanonicalForm.keyOrder _)
    cases left : defined (normal 0 (value ((Json.object members).get k))) with
    | true => exact normalMember unique unique' perm left
    | false =>
      cases right : defined (normal 0 (value ((Json.object others).get k))) with
      | true => exact (normalMember unique' unique perm.symm right).symm
      | false => rw [undefinedOf left,undefinedOf right]
  · intro each
    refine congrArg Value.object (sortedSame ?_ (normalNames unique))
    refine (List.perm_ext_iff_of_nodup (normalNames unique).of_map (normalNames unique').of_map).mpr ?_
    rintro ⟨key,w⟩
    rw [memNormal unique,memNormal unique']
    exact exists_congr fun k => by rw [each k]

theorem sameText {p : Platform} {read : Text → Value Rat} (lawful : (numberFormat p read).Lawful)
    {v w : Json} {text : String} (distinctV : Distinct v) (distinctW : Distinct w)
    (writtenV : AccpEnvelope.canonicalJson p v = .ok text)
    (writtenW : AccpEnvelope.canonicalJson p w = .ok text) :
    normal 0 (value v) = normal 0 (value w) := by
  have left := jsonUnits p read v
  have right := jsonUnits p read w
  rw [writtenV] at left
  rw [writtenW] at right
  have keyed := distinctKeyed v distinctV
  obtain ⟨u,parsed,_,sameV⟩ := canonicalParses lawful keyed left
  obtain ⟨u',parsed',_,sameW⟩ := canonicalParses lawful (distinctKeyed w distinctW) right
  cases parsed.symm.trans parsed'
  exact (sameAlike (sameV.trans sameW.symm)).normal keyed

theorem digitsHead (n : Nat) : Nat.toDigits 10 n = ['0'] ∨
    ∃ c rest, Nat.toDigits 10 n = c::rest ∧ c ≠ '0' := by
  induction n using Nat.strongRecOn with
  | ind n ih =>
    rw [Nat.toDigits_eq_if (by decide)]
    by_cases small : n < 10
    · rw [if_pos small]
      have each : ∀ m : Fin 10, [Nat.digitChar m] = ['0'] ∨ Nat.digitChar m ≠ '0' := by decide
      rcases each ⟨n,small⟩ with zero | other
      · exact .inl zero
      · exact .inr ⟨_,[],rfl,other⟩
    · rw [if_neg small]
      rcases ih (n / 10) (by omega) with zero | ⟨c,rest,same,other⟩
      · have value := congrArg (Nat.ofDigitChars 10 · 0) zero
        simp only [Nat.ofDigitChars_ten_toDigits] at value
        have : n / 10 = 0 := value
        omega
      · exact .inr ⟨c,rest ++ [Nat.digitChar (n % 10)],by rw [same]; rfl,other⟩

theorem digitUnit {c : Char} (digit : c.isDigit = true) :
    ∃ u, charUnits c = [u] ∧ isDigit u = true ∧ (c ≠ '0' → u ≠ 48) := by
  simp only [Char.isDigit,Bool.and_eq_true,decide_eq_true_eq] at digit
  have least : 48 ≤ c.toNat := digit.1
  have most : c.toNat ≤ 57 := digit.2
  obtain ⟨one,_,_,exact_⟩ := charBelow c (by omega)
  refine ⟨_,one,?_,fun other same => other ?_⟩
  · simp only [isDigit,exact_,Bool.and_eq_true,decide_eq_true_eq]
    exact ⟨least,most⟩
  · rw [same] at exact_
    exact Char.toNat_inj.mp exact_.symm

theorem digitUnits {cs : List Char} (digits : ∀ c ∈ cs, c.isDigit = true) :
    ∀ u ∈ listUnits cs, isDigit u = true := by
  intro u listed
  obtain ⟨c,inside,own⟩ := List.mem_flatMap.mp listed
  obtain ⟨v,one,digit,_⟩ := digitUnit (digits c inside)
  rw [one,List.mem_singleton] at own
  exact own ▸ digit

theorem decimalDigits (n : Nat) : ∀ c ∈ Nat.toDigits 10 n, c.isDigit = true :=
  fun _ listed => Nat.isDigit_of_mem_toDigits (by decide) (by decide) listed

theorem integerDigits (n : Nat) {tail : Text} (ends : ∀ u ∈ tail.head?, isDigit u = false) :
    integerPart (listUnits (Nat.toDigits 10 n) ++ tail) = some tail := by
  rcases digitsHead n with zero | ⟨c,rest,same,other⟩
  · rw [zero]
    rfl
  · have digits := decimalDigits n
    rw [same] at digits ⊢
    obtain ⟨u,one,digit,nonzero⟩ := digitUnit (digits c List.mem_cons_self)
    have inside := digitUnits fun d listed => digits d (List.mem_cons_of_mem _ listed)
    rw [listUnitsCons,one,List.singleton_append,List.cons_append,integerPart,
      if_neg (nonzero other),digitsThen]
    rw [List.takeWhile_cons_of_pos digit,List.dropWhile_cons_of_pos digit,if_neg (by simp)]
    rw [List.dropWhile_append_of_pos inside]
    cases tail with
    | nil => rfl
    | cons v tail => rw [List.dropWhile_cons_of_neg (by rw [ends v rfl]; exact Bool.false_ne_true)]

theorem digitsLead (n : Nat) : ∃ u rest, listUnits (Nat.toDigits 10 n) = u::rest ∧
    isDigit u = true ∧ ∀ v ∈ rest, isDigit v = true := by
  have digits := digitUnits (decimalDigits n)
  cases held : listUnits (Nat.toDigits 10 n) with
  | nil =>
    cases named : Nat.toDigits 10 n with
    | nil => exact absurd named Nat.toDigits_ne_nil
    | cons c rest =>
      obtain ⟨u,one,_⟩ := digitUnit (decimalDigits n c (by rw [named]; exact List.mem_cons_self))
      rw [named,listUnitsCons,one] at held
      cases held
  | cons u rest =>
    rw [held] at digits
    exact ⟨u,rest,rfl,digits u List.mem_cons_self,fun v listed =>
      digits v (List.mem_cons_of_mem _ listed)⟩

theorem unsignedDigit {u : CodeUnit} (digit : isDigit u = true) : u ≠ 43 ∧ u ≠ 45 := by
  constructor
  all_goals
    rintro rfl
    exact absurd digit (by decide)

theorem integerText (i : Int) : (toString i).toList =
    (if 0 ≤ i then [] else ['-']) ++ Nat.toDigits 10 i.natAbs := by
  rw [Int.toString_eq_repr,Int.repr_eq_if]
  split
  next positive =>
    rw [Nat.toList_repr,show i.toNat = i.natAbs by omega]
    rfl
  next negative =>
    rw [String.toList_append,Nat.toList_repr,show (-i).toNat = i.natAbs by omega]
    rfl

theorem integerUnits (i : Int) : ∀ u ∈ units (toString i), numberUnit u = true := by
  intro u listed
  rw [unitsList,integerText,listUnitsAppend,List.mem_append] at listed
  rcases listed with sign | digit
  · split at sign
    · cases sign
    · rw [show u = 45 from List.mem_singleton.mp sign]
      decide
  · simp [numberUnit,digitUnits (decimalDigits i.natAbs) u digit]

theorem integerLeads (i : Int) {tail : Text} (ends : ∀ u ∈ tail.head?, isDigit u = false) :
    integerPart (positivePart (units (toString i) ++ tail)) = some tail := by
  rw [unitsList,integerText]
  split
  · have whole := integerDigits i.natAbs ends
    obtain ⟨u,rest,held,digit,_⟩ := digitsLead i.natAbs
    rw [held] at whole
    rw [List.nil_append,held,List.cons_append,positivePart,if_neg (unsignedDigit digit).2]
    exact whole
  · exact integerDigits i.natAbs ends

theorem integerNumber (i : Int) : isNumber (units (toString i)) = true := by
  have whole : integerPart (positivePart (units (toString i) ++ [])) = some [] :=
    integerLeads i fun _ listed => nomatch listed
  rw [List.append_nil] at whole
  unfold isNumber
  rw [whole,List.all_eq_true.mpr (integerUnits i)]
  decide

theorem exponentNumber (i : Int) (n : Nat) :
    isNumber (units (toString i ++ "e" ++ toString n)) = true := by
  obtain ⟨u,rest,held,digit,digits⟩ := digitsLead n
  have text : units (toString i ++ "e" ++ toString n) = units (toString i) ++ 101::u::rest := by
    rw [unitsAppend,unitsAppend,List.append_assoc,unitsList (toString n),Nat.toString_eq_repr,
      Nat.toList_repr,held]
    rfl
  have whole : integerPart (positivePart (units (toString i) ++ 101::u::rest)) =
      some (101::u::rest) := integerLeads i fun v listed => by
    cases listed
    decide
  have exponent : exponentPart (101::u::rest) = some [] := by
    have plain := unsignedDigit digit
    rw [exponentPart,if_pos (.inr rfl),JsonText.unsigned,
      if_neg (not_or.mpr ⟨plain.1,plain.2⟩),digitsThen,List.takeWhile_cons_of_pos digit,
      if_neg (by simp)]
    rw [List.dropWhile_cons_of_pos digit]
    exact congrArg some (List.dropWhile_eq_nil_iff.mpr digits)
  have each : ∀ v ∈ units (toString i) ++ 101::u::rest, numberUnit v = true := by
    intro v listed
    rcases List.mem_append.mp listed with own | listed
    · exact integerUnits i v own
    · rcases List.mem_cons.mp listed with rfl | listed
      · decide
      · have digit : isDigit v = true := by
          rcases List.mem_cons.mp listed with rfl | listed
          · exact digit
          · exact digits v listed
        simp [numberUnit,digit]
  unfold isNumber
  rw [text,whole,List.all_eq_true.mpr each]
  show decide (exponentPart (101::u::rest) = some []) = true
  rw [exponent]
  decide

theorem integerInjective {i j : Int} (same : toString i = toString j) : i = j := by
  have texts := congrArg String.toList same
  rw [integerText,integerText] at texts
  have headed (n : Nat) : ∀ c ∈ (Nat.toDigits 10 n).head?, c ≠ '-' := by
    intro c listed
    have digit := decimalDigits n c (List.mem_of_mem_head? listed)
    rintro rfl
    exact absurd digit (by decide)
  have value {m n : Nat} (same : Nat.toDigits 10 m = Nat.toDigits 10 n) : m = n := by
    have digits := congrArg (Nat.ofDigitChars 10 · 0) same
    rwa [Nat.ofDigitChars_ten_toDigits,Nat.ofDigitChars_ten_toDigits] at digits
  split at texts
  · split at texts
    · have := value texts
      omega
    · exact absurd rfl (headed i.natAbs '-' (by rw [← List.nil_append (Nat.toDigits 10 i.natAbs),texts]; rfl))
  · split at texts
    · exact absurd rfl (headed j.natAbs '-' (by rw [← List.nil_append (Nat.toDigits 10 j.natAbs),← texts]; rfl))
    · have := value (List.append_cancel_left texts)
      omega

theorem integerPlain (i : Int) : 'e' ∉ (toString i).toList := by
  rw [integerText,List.mem_append]
  rintro (sign | digit)
  · split at sign
    · cases sign
    · cases List.mem_singleton.mp sign
  · exact absurd (decimalDigits i.natAbs 'e' digit) (by decide)

theorem exponentInjective {i j : Int} {m n : Nat}
    (same : toString i ++ "e" ++ toString m = toString j ++ "e" ++ toString n) :
    i = j ∧ m = n := by
  have texts := congrArg String.toList same
  simp only [String.toList_append,List.append_assoc,Nat.toString_eq_repr,Nat.toList_repr] at texts
  have plain : 'e' ∉ Nat.toDigits 10 m := fun listed =>
    absurd (decimalDigits m 'e' listed) (by decide)
  obtain ⟨first,_,last⟩ := (List.append_cons_inj_of_notMem (integerPlain i) plain).mp texts
  refine ⟨integerInjective (String.toList_injective first),?_⟩
  have last : Nat.toDigits 10 m = Nat.toDigits 10 n := last
  have digits := congrArg (Nat.ofDigitChars 10 · 0) last
  rwa [Nat.ofDigitChars_ten_toDigits,Nat.ofDigitChars_ten_toDigits] at digits

theorem exponentApart (i j : Int) (n : Nat) : toString i ++ "e" ++ toString n ≠ toString j := by
  intro same
  refine integerPlain j ?_
  rw [← same,String.toList_append,String.toList_append]
  exact List.mem_append_left _ (List.mem_append_right _ List.mem_cons_self)

end ControlCenter.CanonicalTexts
