import ControlCenter.JsonValue

/-! A schema is its own parser: it rejects a value or returns what it parsed,
with unknown members stripped and defaults filled in. -/
namespace ControlCenter.ZodSchema
open JsonValue

abbrev Schema := Json → Option Json

def accepts (schema : Schema) (v : Json) : Bool := (schema v).isSome

abbrev Pattern := List (Char → Bool)

def fits : Pattern → List Char → Bool
  | [],[] => true
  | p::ps,c::cs => p c && fits ps cs
  | _,_ => false

def exactly (text : String) : Pattern := text.toList.map fun c => (· == c)
def digit (c : Char) : Bool := '0' ≤ c && c ≤ '9'
def lowerHex (c : Char) : Bool := digit c || ('a' ≤ c && c ≤ 'f')
def anyHex (c : Char) : Bool := lowerHex c || ('A' ≤ c && c ≤ 'F')
def alphanumeric (c : Char) : Bool := digit c || ('a' ≤ c && c ≤ 'z') || ('A' ≤ c && c ≤ 'Z')

def stringThat (check : String → Bool) : Schema
  | .string s => if check s then some (.string s) else none
  | _ => none

def string : Schema := stringThat fun _ => true
def stringMatching (p : Pattern) : Schema := stringThat fun s => fits p s.toList
def stringSized (low high : Nat) : Schema := stringThat fun s =>
  decide (low ≤ (utf16 s).length) && decide ((utf16 s).length ≤ high)
def nonemptyString : Schema := stringThat fun s => s != ""

-- Integers are safe integers, as in the schema library the source uses.
def safeInteger (n : Int) : Bool := decide (-9007199254740991 ≤ n) && decide (n ≤ 9007199254740991)

def integerFrom (low : Int) : Schema
  | .number n => match n.integer? with
    | some i => if safeInteger i && decide (low ≤ i) then some (.number n) else none
    | none => none
  | _ => none

def integer : Schema := integerFrom (-9007199254740991)
def nonnegative : Schema := integerFrom 0
def positive : Schema := integerFrom 1

def boolean : Schema
  | .boolean b => some (.boolean b)
  | _ => none

def literal (n : Nat) : Schema
  | .number m => if m = .finite n then some (.number m) else none
  | _ => none

def oneOf (options : List String) : Schema := stringThat fun s => options.contains s

def unknown : Schema := some

def arrayItems (item : Schema) : List Json → Option (List Json)
  | [] => some []
  | v::rest => do
      let head ← item v
      let tail ← arrayItems item rest
      some (head::tail)

def arraySized (item : Schema) (size : Nat → Bool) : Schema
  | .array items => do
      let parsed ← arrayItems item items
      if size parsed.length then some (.array parsed) else none
  | _ => none

def array (item : Schema) : Schema := arraySized item fun _ => true
def nonemptyArray (item : Schema) : Schema := arraySized item fun n => decide (1 ≤ n)

def record : Schema
  | .object members => some (.object members)
  | _ => none

inductive Presence where
  | required
  | optional
  | byDefault (value : Json)

structure Field where
  name : String
  schema : Schema
  presence : Presence

def field (name : String) (schema : Schema) : Field := ⟨name,schema,.required⟩
def optional (name : String) (schema : Schema) : Field := ⟨name,schema,.optional⟩
def withDefault (name : String) (schema : Schema) (value : Json) : Field :=
  ⟨name,schema,.byDefault value⟩

def fields (v : Json) : List Field → Option (List (String × Json))
  | [] => some []
  | f::rest => match v.get f.name,f.presence with
    | .undefined,.optional => fields v rest
    | .undefined,.byDefault d => do
        let tail ← fields v rest
        some ((f.name,d)::tail)
    -- The key has to be there, also under a schema that accepts undefined.
    | value,_ => if v.has f.name then do
        let head ← f.schema value
        let tail ← fields v rest
        some ((f.name,head)::tail) else none

def object (shape : List Field) : Schema
  | .object members => do
      let parsed ← fields (.object members) shape
      some (.object parsed)
  | _ => none

def refined (schema : Schema) (check : Json → Bool) : Schema := fun v => do
  let parsed ← schema v
  if check parsed then some parsed else none

theorem itemsLength {item : Schema} {vs parsed : List Json}
    (h : arrayItems item vs = some parsed) : parsed.length = vs.length := by
  induction vs generalizing parsed with
  | nil => simp [arrayItems] at h; subst h; rfl
  | cons v rest ih =>
    simp only [arrayItems,bind,Option.bind_eq_some_iff] at h
    obtain ⟨head,_,tail,ht,last⟩ := h
    cases Option.some.inj last
    simp [ih ht]

theorem itemsAccepted {item : Schema} {vs parsed : List Json}
    (h : arrayItems item vs = some parsed) : ∀ v ∈ vs, accepts item v = true := by
  induction vs generalizing parsed with
  | nil => simp
  | cons v rest ih =>
    simp only [arrayItems,bind,Option.bind_eq_some_iff] at h
    obtain ⟨head,hh,tail,ht,_⟩ := h
    intro w hw
    rcases List.mem_cons.mp hw with rfl | inside
    · simp [accepts,hh]
    · exact ih ht w inside

theorem stringThatSame {check : String → Bool} {v parsed : Json}
    (h : stringThat check v = some parsed) : parsed = v := by
  cases v with
  | string s =>
    simp only [stringThat] at h
    split at h <;> try contradiction
    exact (Option.some.inj h).symm
  | _ => contradiction

theorem stringThatText {check : String → Bool} {v parsed : Json}
    (h : stringThat check v = some parsed) : ∃ s, parsed = .string s ∧ check s = true := by
  cases v with
  | string s =>
    simp only [stringThat] at h
    split at h <;> try contradiction
    exact ⟨s,(Option.some.inj h).symm,‹_›⟩
  | _ => contradiction

theorem integerFromSame {low : Int} {v parsed : Json} (h : integerFrom low v = some parsed) :
    parsed = v := by
  cases v with
  | number n =>
    simp only [integerFrom] at h
    split at h <;> try contradiction
    split at h <;> try contradiction
    exact (Option.some.inj h).symm
  | _ => contradiction

theorem naturalAccepted (low : Int) (k : Nat) :
    accepts (integerFrom low) (.nat k) = true ↔ low ≤ k ∧ k ≤ 9007199254740991 := by
  have above : (-9007199254740991 : Int) ≤ k := by omega
  have below : (k : Int) ≤ 9007199254740991 ↔ k ≤ 9007199254740991 := by omega
  simp [accepts,integerFrom,Json.nat,Number.integer?,safeInteger,above,below,and_comm]

theorem positiveNatural {v parsed : Json} (h : positive v = some parsed) : 1 ≤ parsed.natural := by
  have same := integerFromSame h
  subst same
  cases parsed with
  | number n =>
    simp only [positive,integerFrom] at h
    cases hi : n.integer? with
    | none => simp [hi] at h
    | some i =>
      simp only [hi] at h
      split at h <;> try contradiction
      rename_i checked
      simp only [Bool.and_eq_true,decide_eq_true_eq] at checked
      simp only [Json.natural,hi,Option.getD_some]
      omega
  | _ => contradiction

theorem fieldsRequired {v : Json} {name : String} (held : v.has name = true) (schema : Schema)
    (rest : List Field) : fields v (field name schema :: rest) =
      (schema (v.get name)).bind fun head => (fields v rest).bind fun tail =>
        some ((name,head)::tail) := by
  simp only [fields,field]
  split
  · contradiction
  · contradiction
  · exact if_pos held

theorem fieldsGiven {v : Json} {name : String} (given : v.get name ≠ .undefined)
    (schema : Schema) (value : Json) (rest : List Field) :
    fields v (withDefault name schema value :: rest) =
      (schema (v.get name)).bind fun head => (fields v rest).bind fun tail =>
        some ((name,head)::tail) := by
  simp only [fields,withDefault]
  split
  · contradiction
  · contradiction
  · exact if_pos (hasGiven given)

def Field.passes (f : Field) (v : Json) : Bool := match v.get f.name,f.presence with
  | .undefined,.optional | .undefined,.byDefault _ => true
  | value,_ => v.has f.name && accepts f.schema value

theorem fieldsPass (v : Json) (shape : List Field) :
    (fields v shape).isSome = shape.all fun f => f.passes v := by
  induction shape with
  | nil => rfl
  | cons f rest ih =>
    have both (held : Bool) (head : Option Json) : (if held then head >>= fun head =>
        fields v rest >>= fun tail => some ((f.name,head)::tail) else none).isSome =
          (held && head.isSome && (fields v rest).isSome) := by
      cases held <;> cases head <;> cases fields v rest <;> rfl
    have filled (value : Json) : (fields v rest >>= fun tail =>
        some ((f.name,value)::tail)).isSome = (fields v rest).isSome := by
      cases fields v rest <;> rfl
    rw [List.all_cons,← ih,fields,Field.passes]
    generalize v.get f.name = own
    cases own with
    | undefined => cases f.presence with
      | required => exact both _ _
      | optional => rfl
      | byDefault value => exact filled value
    | _ => exact both _ _

theorem objectPass (members : List (String × Json)) (shape : List Field) :
    accepts (object shape) (.object members) = shape.all fun f => f.passes (.object members) := by
  rw [← fieldsPass,accepts,object]
  cases fields (.object members) shape <;> rfl

@[simp] theorem requiredPass (name : String) (schema : Schema) (v : Json) :
    (field name schema).passes v = (v.has name && accepts schema (v.get name)) := by
  unfold Field.passes field
  split
  · contradiction
  · contradiction
  · rfl

@[simp] theorem stringAccepted (check : String → Bool) (s : String) :
    accepts (stringThat check) (.string s) = check s := by
  show (if check s then some (Json.string s) else none).isSome = check s
  cases check s <;> rfl

theorem requiredGiven {name : String} {schema : Schema} {v : Json}
    (given : v.get name ≠ .undefined) (accepted : accepts schema (v.get name) = true) :
    (field name schema).passes v = true := by
  rw [requiredPass,hasGiven given,accepted]
  rfl

theorem requiredText {name text : String} {check : String → Bool} {v : Json}
    (held : v.get name = .string text) (passes : check text = true) :
    (field name (stringThat check)).passes v = true := by
  refine requiredGiven (by rw [held]; exact Json.noConfusion) ?_
  rw [held,stringAccepted]
  exact passes

theorem fieldsSource {v : Json} {f : Field} {rest : List Field} {parsed : List (String × Json)}
    (h : fields v (f::rest) = some parsed) : ∃ tail, fields v rest = some tail ∧
      ((v.get f.name = .undefined ∧ f.presence = .optional ∧ parsed = tail) ∨
      ∃ value, parsed = (f.name,value)::tail ∧ (f.schema (v.get f.name) = some value ∨
        v.get f.name = .undefined ∧ f.presence = .byDefault value)) := by
  rw [fields] at h
  split at h
  · rename_i absent optional
    exact ⟨parsed,h,.inl ⟨absent,optional,rfl⟩⟩
  · rename_i value absent default
    simp only [bind,Option.bind_eq_some_iff] at h
    obtain ⟨tail,found,last⟩ := h
    cases Option.some.inj last
    exact ⟨tail,found,.inr ⟨value,rfl,.inr ⟨absent,default⟩⟩⟩
  · split at h <;> try contradiction
    simp only [bind,Option.bind_eq_some_iff] at h
    obtain ⟨value,own,tail,found,last⟩ := h
    cases Option.some.inj last
    exact ⟨tail,found,.inr ⟨value,rfl,.inl own⟩⟩

theorem requiredHeld {v : Json} {shape : List Field} {parsed : List (String × Json)}
    (h : fields v shape = some parsed) {f : Field} (listed : f ∈ shape)
    (required : f.presence = .required) : v.has f.name = true := by
  have passes : f.passes v = true := by
    have all : (shape.all fun f => f.passes v) = true := by rw [← fieldsPass,h]; rfl
    exact List.all_eq_true.mp all f listed
  unfold Field.passes at passes
  rw [required] at passes
  split at passes
  · contradiction
  · contradiction
  · exact (Bool.and_eq_true_iff.mp passes).1

theorem unlistedAbsent {v : Json} {shape : List Field} {parsed : List (String × Json)}
    (h : fields v shape = some parsed) {name : String} (unlisted : name ∉ shape.map Field.name) :
    lookup name parsed = none := by
  induction shape generalizing parsed with
  | nil => cases Option.some.inj h; rfl
  | cons f rest ih =>
    rw [List.map_cons,List.mem_cons,not_or] at unlisted
    obtain ⟨tail,found,⟨_,_,rfl⟩ | ⟨value,rfl,_⟩⟩ := fieldsSource h
    · exact ih found unlisted.2
    · rw [lookupCons,if_neg (Ne.symm unlisted.1)]
      exact ih found unlisted.2

theorem memberParsed {v : Json} {shape : List Field} {parsed : List (String × Json)}
    (h : fields v shape = some parsed) (distinct : (shape.map Field.name).Nodup) {f : Field}
    (listed : f ∈ shape) :
    (v.get f.name = .undefined ∧ f.presence = .optional ∧ lookup f.name parsed = none) ∨
      ∃ value, lookup f.name parsed = some value ∧ (f.schema (v.get f.name) = some value ∨
        v.get f.name = .undefined ∧ f.presence = .byDefault value) := by
  induction shape generalizing parsed with
  | nil => contradiction
  | cons g rest ih =>
    rw [List.map_cons,List.nodup_cons] at distinct
    obtain ⟨tail,found,step⟩ := fieldsSource h
    rcases List.mem_cons.mp listed with rfl | later
    · rcases step with ⟨absent,optional,rfl⟩ | ⟨value,rfl,own⟩
      · exact .inl ⟨absent,optional,unlistedAbsent found distinct.1⟩
      · exact .inr ⟨value,by simp,own⟩
    · have other : ¬g.name = f.name := fun same => distinct.1 (same ▸ List.mem_map_of_mem later)
      rcases step with ⟨_,_,rfl⟩ | ⟨value,rfl,_⟩
      · exact ih found distinct.2 later
      · rw [lookupCons,if_neg other]
        exact ih found distinct.2 later

theorem fieldParsed {v : Json} {shape : List Field} {parsed : List (String × Json)}
    (h : fields v shape = some parsed) (distinct : (shape.map Field.name).Nodup) {f : Field}
    (listed : f ∈ shape) (required : f.presence = .required) :
    ∃ value, f.schema (v.get f.name) = some value ∧ lookup f.name parsed = some value := by
  rcases memberParsed h distinct listed with ⟨_,optional,_⟩ | ⟨value,found,own | ⟨_,default⟩⟩
  · rw [required] at optional
    contradiction
  · exact ⟨value,own,found⟩
  · rw [required] at default
    contradiction

theorem givenField {v parsed : Json} {shape : List Field} (h : object shape v = some parsed)
    (distinct : (shape.map Field.name).Nodup) {f : Field} (listed : f ∈ shape)
    (given : v.get f.name ≠ .undefined) : f.schema (v.get f.name) = some (parsed.get f.name) := by
  cases v with
  | object members =>
    simp only [object,bind,Option.bind_eq_some_iff] at h
    obtain ⟨out,found,last⟩ := h
    cases Option.some.inj last
    rcases memberParsed found distinct listed with ⟨absent,_⟩ | ⟨value,held,own | ⟨absent,_⟩⟩
    · exact absurd absent given
    · rw [own,getObject f.name out,held]
      rfl
    · exact absurd absent given
  | _ => contradiction

theorem objectField {v parsed : Json} {shape : List Field} (h : object shape v = some parsed)
    (distinct : (shape.map Field.name).Nodup) {f : Field} (listed : f ∈ shape)
    (required : f.presence = .required) :
    f.schema (v.get f.name) = some (parsed.get f.name) := by
  cases v with
  | object members =>
    simp only [object,bind,Option.bind_eq_some_iff] at h
    obtain ⟨out,ho,last⟩ := h
    cases Option.some.inj last
    obtain ⟨value,hv,found⟩ := fieldParsed ho distinct listed required
    rw [hv,getObject f.name out,found]
    rfl
  | _ => contradiction

theorem optionalText {v parsed : Json} {shape : List Field} (h : object shape v = some parsed)
    (distinct : (shape.map Field.name).Nodup) (name : String) (check : String → Bool)
    (listed : optional name (stringThat check) ∈ shape) :
    parsed.get name = v.get name ∧ ((parsed.get name).text.all check) = true := by
  cases v with
  | object members =>
    simp only [object,bind,Option.bind_eq_some_iff] at h
    obtain ⟨out,found,last⟩ := h
    cases Option.some.inj last
    rcases memberParsed found distinct listed with ⟨absent,_,missing⟩ | ⟨value,held,own | ⟨_,default⟩⟩
    · have absent : (Json.object members).get name = .undefined := absent
      have missing : lookup name out = none := missing
      rw [getObject name out,missing,absent]
      exact ⟨rfl,rfl⟩
    · have held : lookup name out = some value := held
      rw [getObject name out,held]
      obtain ⟨s,rfl,passed⟩ := stringThatText own
      exact ⟨stringThatSame own,passed⟩
    · contradiction
  | _ => contradiction

end ControlCenter.ZodSchema
