import Mathlib.Data.List.Sort
import Mathlib.Data.List.Nodup

/-! JSON texts as sequences of UTF-16 code units: escaping of strings, the reading of a
text and the writing of a value, over any type of finite numbers. A text that was written
reads back as its value. -/
namespace ControlCenter.JsonText

abbrev CodeUnit := Fin 65536
abbrev Text := List CodeUnit

-- Numbers count round the code units, and round the digits.
instance codeUnits : @NeZero Nat Zero.ofOfNat0 65536 := ⟨by decide⟩
instance digits : @NeZero Nat Zero.ofOfNat0 10 := ⟨by decide⟩

inductive Value (N : Type) where
  | undefined
  | null
  | boolean (value : Bool)
  | number (n : N)
  | negativeZero
  -- An infinity or NaN.
  | nonFinite
  | string (s : Text)
  | array (items : List (Value N))
  | object (members : List (Text × Value N))

structure NumberFormat (N : Type) where
  zero : N
  text : N → Text
  read : Text → Value N

def ascii (s : String) : Text := s.toList.map fun c => Fin.ofNat 65536 c.toNat

def isDigit (c : CodeUnit) : Bool := 48 ≤ c.val && c.val ≤ 57

def numberUnit (c : CodeUnit) : Bool :=
  isDigit c || c = 43 || c = 45 || c = 46 || c = 69 || c = 101

def digitsThen (s : Text) : Option Text :=
  if (s.takeWhile isDigit).isEmpty then none else some (s.dropWhile isDigit)

def integerPart : Text → Option Text
  | [] => none
  | c::rest => if c = 48 then some rest else digitsThen (c::rest)

def fractionPart : Text → Option Text
  | [] => some []
  | c::rest => if c = 46 then digitsThen rest else some (c::rest)

def unsigned : Text → Text
  | [] => []
  | c::rest => if c = 43 ∨ c = 45 then rest else c::rest

def exponentPart : Text → Option Text
  | [] => some []
  | c::rest => if c = 69 ∨ c = 101 then digitsThen (unsigned rest) else some (c::rest)

def positivePart : Text → Text
  | [] => []
  | c::rest => if c = 45 then rest else c::rest

def isNumber (s : Text) : Bool :=
  s.all numberUnit && (((integerPart (positivePart s)).bind fractionPart).bind exponentPart) = some []

structure NumberFormat.Lawful {N : Type} (f : NumberFormat N) : Prop where
  number : ∀ n, isNumber (f.text n) = true
  read : ∀ n, f.read (f.text n) = .number n

def high (c : CodeUnit) : Bool := 0xd800 ≤ c.val && c.val < 0xdc00
def low (c : CodeUnit) : Bool := 0xdc00 ≤ c.val && c.val < 0xe000

def hexDigit (n : Nat) : CodeUnit := Fin.ofNat 65536 (if n < 10 then 48 + n else 87 + n)

def hex4 (c : CodeUnit) : Text :=
  [hexDigit (c.val / 4096),hexDigit (c.val / 256 % 16),hexDigit (c.val / 16 % 16),
    hexDigit (c.val % 16)]

def escapeUnit (c : CodeUnit) : Text :=
  if c = 34 then [92,34] else if c = 92 then [92,92] else if c = 8 then [92,98]
  else if c = 12 then [92,102] else if c = 10 then [92,110] else if c = 13 then [92,114]
  else if c = 9 then [92,116]
  else if c.val < 32 || high c || low c then [92,117] ++ hex4 c
  else [c]

-- A surrogate pair stays, a lone surrogate is escaped.
def escape : Text → Text
  | [] => []
  | [a] => escapeUnit a
  | a::b::rest =>
      if high a && low b then a::b::escape rest else escapeUnit a ++ escape (b::rest)

def quoted (s : Text) : Text := 34::escape s ++ [34]

def hexValue (c : CodeUnit) : Option Nat :=
  if isDigit c then some (c.val - 48)
  else if 97 ≤ c.val ∧ c.val ≤ 102 then some (c.val - 87)
  else if 65 ≤ c.val ∧ c.val ≤ 70 then some (c.val - 55)
  else none

def readHex4 (a b c d : CodeUnit) : Option CodeUnit := do
  let a ← hexValue a
  let b ← hexValue b
  let c ← hexValue c
  let d ← hexValue d
  some (Fin.ofNat 65536 (a * 4096 + b * 256 + c * 16 + d))

def unescape (c : CodeUnit) : Option CodeUnit :=
  if c = 34 ∨ c = 47 ∨ c = 92 then some c
  else if c = 98 then some 8 else if c = 102 then some 12 else if c = 110 then some 10
  else if c = 114 then some 13 else if c = 116 then some 9
  else none

def readString : Text → Option (Text × Text)
  | [] => none
  | c::rest =>
    if c = 34 then some ([],rest)
    else if c = 92 then match rest with
      | 117::h₁::h₂::h₃::h₄::rest => do
          let u ← readHex4 h₁ h₂ h₃ h₄
          let (s,rest) ← readString rest
          some (u::s,rest)
      | e::rest => do
          let u ← unescape e
          let (s,rest) ← readString rest
          some (u::s,rest)
      | [] => none
    else if c.val < 32 then none
    else do
      let (s,rest) ← readString rest
      some (c::s,rest)

theorem hexRead : ∀ n : Fin 16, hexValue (hexDigit n) = some n.val := by decide

theorem hex4Read (c : CodeUnit) : readHex4 (hexDigit (c.val / 4096)) (hexDigit (c.val / 256 % 16))
    (hexDigit (c.val / 16 % 16)) (hexDigit (c.val % 16)) = some c := by
  have bound := c.isLt
  have first := hexRead ⟨c.val / 4096,by omega⟩
  have second := hexRead ⟨c.val / 256 % 16,by omega⟩
  have third := hexRead ⟨c.val / 16 % 16,by omega⟩
  have fourth := hexRead ⟨c.val % 16,by omega⟩
  dsimp only at first second third fourth
  simp only [readHex4,first,second,third,fourth,bind,Option.bind_some,Option.some.injEq]
  apply Fin.ext
  rw [Fin.val_ofNat]
  omega

theorem readPlain {c : CodeUnit} {rest : Text} (quote : c ≠ 34) (backslash : c ≠ 92)
    (control : ¬c.val < 32) :
    readString (c::rest) = (readString rest).map fun (s,rest) => (c::s,rest) := by
  rw [readString.eq_def]
  simp only [if_neg quote,if_neg backslash,if_neg control]
  cases readString rest <;> rfl

theorem readEscaped {c e : CodeUnit} {rest : Text} (unescaped : unescape e = some c)
    (notHex : e ≠ 117) :
    readString (92::e::rest) = (readString rest).map fun (s,rest) => (c::s,rest) := by
  rw [readString.eq_def]
  simp only [if_neg (show (92 : CodeUnit) ≠ 34 by decide),if_pos]
  split
  next same =>
    cases same
    exact absurd rfl notHex
  next same =>
    cases same
    simp only [unescaped,bind,Option.bind_some]
    cases readString rest <;> rfl
  next same => cases same

theorem readUnicode {h₁ h₂ h₃ h₄ c : CodeUnit} (value : readHex4 h₁ h₂ h₃ h₄ = some c)
    (rest : Text) : readString (92::117::h₁::h₂::h₃::h₄::rest) =
      (readString rest).map fun (s,rest) => (c::s,rest) := by
  rw [readString.eq_def]
  simp only [if_neg (show (92 : CodeUnit) ≠ 34 by decide),if_pos,value,bind,Option.bind_some]
  cases readString rest <;> rfl

theorem readHex (c : CodeUnit) (rest : Text) :
    readString ([92,117] ++ hex4 c ++ rest) = (readString rest).map fun (s,rest) => (c::s,rest) :=
  readUnicode (hex4Read c) rest

theorem readUnit (c : CodeUnit) (rest : Text) :
    readString (escapeUnit c ++ rest) = (readString rest).map fun (s,rest) => (c::s,rest) := by
  unfold escapeUnit
  split
  next same => subst same; exact readEscaped (by decide) (by decide)
  split
  next same => subst same; exact readEscaped (by decide) (by decide)
  split
  next same => subst same; exact readEscaped (by decide) (by decide)
  split
  next same => subst same; exact readEscaped (by decide) (by decide)
  split
  next same => subst same; exact readEscaped (by decide) (by decide)
  split
  next same => subst same; exact readEscaped (by decide) (by decide)
  split
  next same => subst same; exact readEscaped (by decide) (by decide)
  split
  next => exact readHex c rest
  next quote backslash _ _ _ _ _ plain =>
    simp only [Bool.or_eq_true,not_or,decide_eq_true_eq] at plain
    exact readPlain quote backslash plain.1.1

theorem readSurrogate {c : CodeUnit} {rest : Text} (surrogate : 0xd800 ≤ c.val) :
    readString (c::rest) = (readString rest).map fun (s,rest) => (c::s,rest) :=
  readPlain (fun same => absurd surrogate (by rw [same]; decide))
    (fun same => absurd surrogate (by rw [same]; decide)) (by omega)

theorem readEnd (rest : Text) : readString (34::rest) = some ([],rest) := by
  rw [readString.eq_def]
  rfl

theorem readEscape (s rest : Text) : readString (escape s ++ 34::rest) = some (s,rest) := by
  fun_induction escape s with
  | case1 => exact readEnd rest
  | case2 a =>
    rw [readUnit,readEnd]
    rfl
  | case3 a b tail pair ih =>
    simp only [high,low,Bool.and_eq_true,decide_eq_true_eq] at pair
    simp only [List.cons_append]
    rw [readSurrogate (by omega),readSurrogate (by omega),ih]
    rfl
  | case4 a b tail _ ih =>
    rw [List.append_assoc,readUnit,ih]
    rfl

def blank (c : CodeUnit) : Bool := c = 32 || c = 9 || c = 10 || c = 13

-- A name that occurs again keeps its place and takes the later value.
def assign {B : Type} (members : List (Text × B)) (member : Text × B) : List (Text × B) :=
  if member.1 ∈ members.map Prod.fst then
    members.map fun m => if m.1 = member.1 then member else m
  else members ++ [member]

section
variable {N : Type}

def expect (word : String) (v : Value N) (s : Text) : Option (Value N × Text) :=
  if (ascii word).isPrefixOf s then some (v,s.drop (ascii word).length) else none

def readNumber (f : NumberFormat N) (s : Text) : Option (Value N × Text) :=
  if isNumber (s.takeWhile numberUnit) then
    some (f.read (s.takeWhile numberUnit),s.dropWhile numberUnit)
  else none

mutual
-- The fuel bounds the nesting; the length of the text is always enough.
def parseValue (f : NumberFormat N) : Nat → Text → Option (Value N × Text)
  | 0,_ => none
  | fuel + 1,s => match s.dropWhile blank with
    | [] => none
    | c::rest =>
      if c = 34 then (readString rest).map fun (s,rest) => (.string s,rest)
      else if c = 91 then match rest.dropWhile blank with
        | [] => none
        | d::tail => if d = 93 then some (.array [],tail)
            else (parseItems f fuel rest).map fun (items,rest) => (.array items,rest)
      else if c = 123 then match rest.dropWhile blank with
        | [] => none
        | d::tail => if d = 125 then some (.object [],tail)
            else (parseMembers f fuel rest).map fun (members,rest) =>
              (.object (members.foldl assign []),rest)
      else if c = 110 then expect "null" .null (c::rest)
      else if c = 116 then expect "true" (.boolean true) (c::rest)
      else if c = 102 then expect "false" (.boolean false) (c::rest)
      else readNumber f (c::rest)

def parseItems (f : NumberFormat N) : Nat → Text → Option (List (Value N) × Text)
  | 0,_ => none
  | fuel + 1,s => do
    let (v,rest) ← parseValue f fuel s
    match rest.dropWhile blank with
    | [] => none
    | c::rest =>
      if c = 44 then (parseItems f fuel rest).map fun (items,rest) => (v::items,rest)
      else if c = 93 then some ([v],rest)
      else none

def parseMembers (f : NumberFormat N) : Nat → Text → Option (List (Text × Value N) × Text)
  | 0,_ => none
  | fuel + 1,s => match s.dropWhile blank with
    | [] => none
    | c::rest =>
      if c = 34 then do
        let (key,rest) ← readString rest
        match rest.dropWhile blank with
        | [] => none
        | c::rest =>
          if c = 58 then do
            let (v,rest) ← parseValue f fuel rest
            match rest.dropWhile blank with
            | [] => none
            | c::rest =>
              if c = 44 then
                (parseMembers f fuel rest).map fun (members,rest) => ((key,v)::members,rest)
              else if c = 125 then some ([(key,v)],rest)
              else none
          else none
      else none
end

def parse (f : NumberFormat N) (s : Text) : Option (Value N) :=
  match parseValue f s.length s with
  | some (v,rest) => if rest.all blank then some v else none
  | none => none

def join : List Text → Text
  | [] => []
  | [part] => part
  | part::next::parts => part ++ 44::join (next::parts)

mutual
def write (f : NumberFormat N) : Value N → Text
  | .undefined | .nonFinite | .null => ascii "null"
  | .boolean b => ascii (if b then "true" else "false")
  | .number n => f.text n
  | .negativeZero => f.text f.zero
  | .string s => quoted s
  | .array items => 91::join (writeItems f items) ++ [93]
  | .object members => 123::join (writeMembers f members) ++ [125]

def writeItems (f : NumberFormat N) : List (Value N) → List Text
  | [] => []
  | v::rest => write f v::writeItems f rest

def writeMembers (f : NumberFormat N) : List (Text × Value N) → List Text
  | [] => []
  | (key,v)::rest => (quoted key ++ 58::write f v)::writeMembers f rest
end

mutual
def Plain : Value N → Prop
  | .undefined | .nonFinite | .negativeZero => False
  | .null | .boolean _ | .number _ | .string _ => True
  | .array items => PlainItems items
  | .object members => (members.map Prod.fst).Nodup ∧ PlainMembers members

def PlainItems : List (Value N) → Prop
  | [] => True
  | v::rest => Plain v ∧ PlainItems rest

def PlainMembers : List (Text × Value N) → Prop
  | [] => True
  | (_,v)::rest => Plain v ∧ PlainMembers rest
end

def Ends (rest : Text) : Prop := ∀ c ∈ rest.head?, numberUnit c = false

theorem endsCons {c : CodeUnit} {rest : Text} (own : numberUnit c = false) : Ends (c::rest) := by
  intro d mem
  cases mem
  exact own

theorem numberPlain {c : CodeUnit} (own : numberUnit c = true) :
    blank c = false ∧ c ≠ 34 ∧ c ≠ 91 ∧ c ≠ 93 ∧ c ≠ 102 ∧ c ≠ 110 ∧ c ≠ 116 ∧ c ≠ 123 := by
  refine ⟨?_,?_,?_,?_,?_,?_,?_,?_⟩
  · cases held : blank c with
    | false => rfl
    | true =>
      simp only [blank,Bool.or_eq_true,decide_eq_true_eq] at held
      rcases held with ((rfl | rfl) | rfl) | rfl <;> exact absurd own (by decide)
  all_goals
    rintro rfl
    exact absurd own (by decide)

theorem numberHead {s : Text} (number : isNumber s = true) :
    ∃ c rest, s = c::rest ∧ numberUnit c = true := by
  cases s with
  | nil => simp [isNumber,positivePart,integerPart] at number
  | cons c rest =>
    simp only [isNumber,List.all_cons,Bool.and_eq_true] at number
    exact ⟨c,rest,rfl,number.1.1⟩

theorem numberUnits {s : Text} (number : isNumber s = true) : ∀ c ∈ s, numberUnit c = true := by
  simp only [isNumber,Bool.and_eq_true,List.all_eq_true] at number
  exact number.1

theorem takesNumber {s rest : Text} (number : isNumber s = true) (ends : Ends rest) :
    (s ++ rest).takeWhile numberUnit = s ∧ (s ++ rest).dropWhile numberUnit = rest := by
  have units := numberUnits number
  rw [List.takeWhile_append_of_pos units,List.dropWhile_append_of_pos units]
  cases rest with
  | nil => simp
  | cons c rest =>
    have own := ends c rfl
    simp [List.takeWhile,List.dropWhile,own]

theorem skipsNone {c : CodeUnit} {rest : Text} (own : blank c = false) :
    (c::rest).dropWhile blank = c::rest := by
  simp [List.dropWhile,own]

variable {f : NumberFormat N}

theorem writeHead (lawful : f.Lawful) (v : Value N) (plain : Plain v) :
    ∃ c rest, write f v = c::rest ∧ blank c = false ∧ c ≠ 93 := by
  cases v with
  | undefined | nonFinite | negativeZero => exact plain.elim
  | null => exact ⟨110,ascii "ull",rfl,rfl,by decide⟩
  | boolean b =>
    cases b with
    | false => exact ⟨102,ascii "alse",rfl,rfl,by decide⟩
    | true => exact ⟨116,ascii "rue",rfl,rfl,by decide⟩
  | number n =>
    obtain ⟨c,rest,same,own⟩ := numberHead (lawful.number n)
    exact ⟨c,rest,same,(numberPlain own).1,(numberPlain own).2.2.2.1⟩
  | string s => exact ⟨34,_,rfl,rfl,by decide⟩
  | array items => exact ⟨91,_,rfl,rfl,by decide⟩
  | object members => exact ⟨123,_,rfl,rfl,by decide⟩

theorem assignFresh (members : List (Text × Value N)) :
    ∀ before : List (Text × Value N), ((before ++ members).map Prod.fst).Nodup →
      members.foldl assign before = before ++ members := by
  induction members with
  | nil => intro before _; simp
  | cons member rest ih =>
    intro before unique
    have fresh : member.1 ∉ before.map Prod.fst := by
      rw [List.map_append,List.map_cons] at unique
      intro mem
      exact (List.nodup_append.mp unique).2.2 _ mem _ List.mem_cons_self rfl
    rw [List.foldl_cons,assign,if_neg fresh,ih (before ++ [member])
      (by simpa [List.append_assoc] using unique),List.append_assoc]
    rfl

theorem joinCons (part : Text) (parts : List Text) :
    join (part::parts) = part ++ (if parts = [] then [] else 44::join parts) := by
  cases parts with
  | nil => simp [join]
  | cons => simp [join]

theorem writeNonempty (lawful : f.Lawful) (v : Value N) (plain : Plain v) :
    0 < (write f v).length := by
  obtain ⟨c,rest,same,_⟩ := writeHead lawful v plain
  rw [same]
  exact Nat.succ_pos _

theorem expectWord (word : String) (v : Value N) (rest : Text) :
    expect word v (ascii word ++ rest) = some (v,rest) := by
  simp [expect]

mutual
theorem parseWritten (lawful : f.Lawful) (v : Value N) (plain : Plain v) (fuel : Nat) (rest : Text)
    (enough : (write f v).length ≤ fuel) (ends : Ends rest) :
    parseValue f fuel (write f v ++ rest) = some (v,rest) := by
  have positive := writeNonempty lawful v plain
  obtain ⟨fuel,rfl⟩ : ∃ k, fuel = k + 1 := ⟨fuel - 1,by omega⟩
  cases v with
  | undefined | nonFinite | negativeZero => exact plain.elim
  | null =>
    rw [parseValue.eq_def]
    exact expectWord "null" .null rest
  | boolean b =>
    rw [parseValue.eq_def]
    cases b with
    | false => exact expectWord "false" (.boolean false) rest
    | true => exact expectWord "true" (.boolean true) rest
  | number n =>
    obtain ⟨c,tail,same,own⟩ := numberHead (lawful.number n)
    obtain ⟨notBlank,quote,bracket,_,false_,null_,true_,brace⟩ := numberPlain own
    obtain ⟨taken,left⟩ := takesNumber (lawful.number n) ends
    have head : write f (.number n) ++ rest = c::(tail ++ rest) := by
      rw [write,same,List.cons_append]
    rw [head,parseValue.eq_def]
    simp only [skipsNone notBlank,if_neg quote,if_neg bracket,if_neg brace,if_neg null_,
      if_neg true_,if_neg false_]
    rw [← List.cons_append,← same,readNumber,taken,left,if_pos (lawful.number n),lawful.read]
  | string s =>
    rw [parseValue.eq_def]
    simp only [write,quoted,List.cons_append,List.append_assoc,List.nil_append,
      skipsNone (show blank 34 = false by decide),if_pos,readEscape]
    rfl
  | array items =>
    rw [parseValue.eq_def]
    simp only [write,List.cons_append,List.append_assoc,List.nil_append,
      skipsNone (show blank 91 = false by decide),if_neg (show (91 : CodeUnit) ≠ 34 by decide),if_pos]
    cases items with
    | nil => rfl
    | cons first items =>
      obtain ⟨c,tail,same,notBlank,notClosing⟩ := writeHead lawful first plain.1
      have parsed := parseWrittenItems lawful (first::items) nofun plain fuel rest (by
        simp only [write,List.length_cons,List.length_append,List.length_nil] at enough
        omega)
      have head : join (writeItems f (first::items)) ++ 93::rest = c::(tail ++
          ((if writeItems f items = [] then [] else 44::join (writeItems f items)) ++ 93::rest)) := by
        rw [writeItems,joinCons,same]
        simp
      rw [parsed,head,skipsNone notBlank]
      simp only [if_neg notClosing,Option.map_some]
  | object members =>
    rw [parseValue.eq_def]
    simp only [write,List.cons_append,List.append_assoc,List.nil_append,
      skipsNone (show blank 123 = false by decide),if_neg (show (123 : CodeUnit) ≠ 34 by decide),
      if_neg (show (123 : CodeUnit) ≠ 91 by decide),if_pos]
    cases members with
    | nil => rfl
    | cons first members =>
      obtain ⟨key,v⟩ := first
      have parsed := parseWrittenMembers lawful ((key,v)::members) nofun plain.2 fuel rest (by
        simp only [write,List.length_cons,List.length_append,List.length_nil] at enough
        omega)
      have head : ∃ tail, join (writeMembers f ((key,v)::members)) ++ 125::rest = 34::tail := by
        rw [writeMembers,joinCons,quoted]
        exact ⟨_,rfl⟩
      obtain ⟨tail,same⟩ := head
      rw [parsed,same,skipsNone (by decide)]
      simp only [if_neg (show (34 : CodeUnit) ≠ 125 by decide),Option.map_some]
      rw [assignFresh _ [] (by simpa using plain.1)]
      rfl

theorem parseWrittenItems (lawful : f.Lawful) (items : List (Value N)) (nonempty : items ≠ [])
    (plain : PlainItems items) (fuel : Nat) (rest : Text)
    (enough : (join (writeItems f items)).length + 1 ≤ fuel) :
    parseItems f fuel (join (writeItems f items) ++ 93::rest) = some (items,rest) := by
  obtain ⟨fuel,rfl⟩ : ∃ k, fuel = k + 1 := ⟨fuel - 1,by omega⟩
  obtain ⟨first,items,rfl⟩ := List.exists_cons_of_ne_nil nonempty
  cases items with
  | nil =>
    simp only [writeItems,join] at enough ⊢
    rw [parseItems.eq_def]
    simp only [parseWritten lawful first plain.1 fuel (93::rest) (by omega)
      (endsCons (by decide)),bind,Option.bind_some,skipsNone (show blank 93 = false by decide)]
    rfl
  | cons next items =>
    have split_ : join (writeItems f (first::next::items)) ++ 93::rest =
        write f first ++ 44::(join (writeItems f (next::items)) ++ 93::rest) := by
      simp [writeItems,join]
    have longer : (join (writeItems f (first::next::items))).length =
        (write f first).length + ((join (writeItems f (next::items))).length + 1) := by
      simp [writeItems,join]
    have head := parseWritten lawful first plain.1 fuel
      (44::(join (writeItems f (next::items)) ++ 93::rest)) (by omega) (endsCons (by decide))
    have tail := parseWrittenItems lawful (next::items) nofun plain.2 fuel rest (by omega)
    rw [split_,parseItems.eq_def]
    simp only [head,tail,bind,Option.bind_some,skipsNone (show blank 44 = false by decide),if_pos,
      Option.map_some]

theorem parseWrittenMembers (lawful : f.Lawful) (members : List (Text × Value N))
    (nonempty : members ≠ []) (plain : PlainMembers members) (fuel : Nat) (rest : Text)
    (enough : (join (writeMembers f members)).length + 1 ≤ fuel) :
    parseMembers f fuel (join (writeMembers f members) ++ 125::rest) = some (members,rest) := by
  obtain ⟨fuel,rfl⟩ : ∃ k, fuel = k + 1 := ⟨fuel - 1,by omega⟩
  obtain ⟨⟨key,v⟩,members,rfl⟩ := List.exists_cons_of_ne_nil nonempty
  have colon (tail : Text) : readString (escape key ++ 34::58::tail) = some (key,58::tail) :=
    readEscape key (58::tail)
  cases members with
  | nil =>
    have text : join (writeMembers f [(key,v)]) ++ 125::rest =
        34::(escape key ++ 34::58::(write f v ++ 125::rest)) := by
      simp [writeMembers,join,quoted]
    have longer : (join (writeMembers f [(key,v)])).length =
        (escape key).length + (write f v).length + 3 := by
      simp [writeMembers,join,quoted]
      omega
    have value := parseWritten lawful v plain.1 fuel (125::rest) (by omega) (endsCons (by decide))
    rw [text,parseMembers.eq_def]
    simp only [skipsNone (show blank 34 = false by decide),if_pos,colon,bind,Option.bind_some,
      skipsNone (show blank 58 = false by decide),value,
      skipsNone (show blank 125 = false by decide)]
    rfl
  | cons next members =>
    obtain ⟨key',v'⟩ := next
    have text : join (writeMembers f ((key,v)::(key',v')::members)) ++ 125::rest =
        34::(escape key ++ 34::58::(write f v ++
          44::(join (writeMembers f ((key',v')::members)) ++ 125::rest))) := by
      simp [writeMembers,join,quoted]
    have longer : (join (writeMembers f ((key,v)::(key',v')::members))).length =
        (escape key).length + (write f v).length + 4 +
          (join (writeMembers f ((key',v')::members))).length := by
      simp [writeMembers,join,quoted]
      omega
    have value := parseWritten lawful v plain.1 fuel
      (44::(join (writeMembers f ((key',v')::members)) ++ 125::rest)) (by omega)
      (endsCons (by decide))
    have tail := parseWrittenMembers lawful ((key',v')::members) nofun plain.2 fuel rest (by omega)
    rw [text,parseMembers.eq_def]
    simp only [skipsNone (show blank 34 = false by decide),if_pos,colon,bind,Option.bind_some,
      skipsNone (show blank 58 = false by decide),value,
      skipsNone (show blank 44 = false by decide),tail,Option.map_some]
end

theorem parseWrite (lawful : f.Lawful) (v : Value N) (plain : Plain v) :
    parse f (write f v) = some v := by
  have parsed := parseWritten lawful v plain (write f v).length [] le_rfl (by simp [Ends])
  rw [List.append_nil] at parsed
  rw [parse,parsed]
  rfl

theorem parseWriteBlank (lawful : f.Lawful) (v : Value N) (plain : Plain v) {c : CodeUnit}
    (isBlank : blank c = true) : parse f (write f v ++ [c]) = some v := by
  have ends : Ends [c] := endsCons (by
    cases own : numberUnit c with
    | false => rfl
    | true => rw [(numberPlain own).1] at isBlank; cases isBlank)
  have parsed := parseWritten lawful v plain (write f v ++ [c]).length [c] (by simp) ends
  simp only [parse,parsed,List.all_cons,isBlank,List.all_nil,Bool.and_true,if_pos]

theorem readLonger {s rest text : Text} (read : readString text = some (s,rest)) (more : Text) :
    readString (text ++ more) = some (s,rest ++ more) := by
  fun_induction readString text generalizing s rest with
  | case1 => cases read
  | case2 tail =>
    cases read
    exact readEnd _
  | case3 h₁ h₂ h₃ h₄ tail _ ih =>
    simp only [bind,Option.bind_eq_some_iff] at read
    obtain ⟨u,value,⟨s,rest⟩,read,same⟩ := read
    cases same
    rw [List.cons_append,List.cons_append,List.cons_append,List.cons_append,List.cons_append,
      List.cons_append,readUnicode value,ih read]
    rfl
  | case4 e tail _ _ ih =>
    simp only [bind,Option.bind_eq_some_iff] at read
    obtain ⟨u,value,⟨s,rest⟩,read,same⟩ := read
    cases same
    have notHex : e ≠ 117 := by
      rintro rfl
      rw [show unescape 117 = none by decide] at value
      cases value
    rw [List.cons_append,List.cons_append,readEscaped value notHex,ih read]
    rfl
  | case5 => cases read
  | case6 => cases read
  | case7 c tail quote backslash control ih =>
    simp only [bind,Option.bind_eq_some_iff] at read
    obtain ⟨⟨s,rest⟩,read,same⟩ := read
    cases same
    rw [List.cons_append,readPlain quote backslash control,ih read]
    rfl

theorem skipsLonger {text tail : Text} {c : CodeUnit} (skips : text.dropWhile blank = c::tail)
    (more : Text) : (text ++ more).dropWhile blank = c::(tail ++ more) := by
  rw [List.dropWhile_append,skips]
  rfl

theorem expectLonger {word : String} {v u : Value N} {rest text : Text}
    (expected : expect word v text = some (u,rest)) (more : Text) :
    expect word v (text ++ more) = some (u,rest ++ more) := by
  unfold expect at expected ⊢
  split at expected
  next isPrefix =>
    cases expected
    have known := List.isPrefixOf_iff_prefix.mp isPrefix
    rw [if_pos (List.isPrefixOf_iff_prefix.mpr (known.trans (List.prefix_append text more))),
      List.drop_append_of_le_length known.length_le]
  next => cases expected

theorem numberLonger {u : Value N} {rest text : Text} (read : readNumber f text = some (u,rest))
    (ended : rest ≠ []) (more : Text) : readNumber f (text ++ more) = some (u,rest ++ more) := by
  unfold readNumber at read
  split at read
  next number =>
    cases read
    have drops : (text ++ more).dropWhile numberUnit = text.dropWhile numberUnit ++ more := by
      rw [List.dropWhile_append,if_neg (by simpa using ended)]
    have takes : (text ++ more).takeWhile numberUnit = text.takeWhile numberUnit := by
      have whole := List.takeWhile_append_dropWhile (p := numberUnit) (l := text ++ more)
      have part := List.takeWhile_append_dropWhile (p := numberUnit) (l := text)
      rw [drops] at whole
      nth_rewrite 3 [← part] at whole
      rw [List.append_assoc] at whole
      exact List.append_cancel_right whole
    rw [readNumber,takes,drops,if_pos number]
  next => cases read

def startsNumber (s : Text) : Bool := (s.dropWhile blank).head?.any numberUnit

mutual
theorem valueLonger (fuel : Nat) {u : Value N} {rest text : Text}
    (parsed : parseValue f fuel text = some (u,rest))
    (ended : rest ≠ [] ∨ startsNumber text = false) (more : Text) (k : Nat) (enough : fuel ≤ k) :
    parseValue f k (text ++ more) = some (u,rest ++ more) := by
  cases fuel with
  | zero => cases parsed
  | succ fuel =>
    obtain ⟨k,rfl⟩ : ∃ j, k = j + 1 := ⟨k - 1,by omega⟩
    rw [parseValue.eq_def] at parsed ⊢
    dsimp only at parsed ⊢
    cases skips : text.dropWhile blank with
    | nil => rw [skips] at parsed; cases parsed
    | cons c tail =>
      rw [skips] at parsed
      rw [skipsLonger skips more]
      dsimp only at parsed ⊢
      split at parsed
      next quote =>
        obtain ⟨⟨s,left⟩,read,same⟩ := Option.map_eq_some_iff.mp parsed
        cases same
        rw [if_pos quote,readLonger read more]
        rfl
      next quote =>
      rw [if_neg quote]
      split at parsed
      next bracket =>
        rw [if_pos bracket]
        cases inner : tail.dropWhile blank with
        | nil => rw [inner] at parsed; cases parsed
        | cons d after =>
          rw [inner] at parsed
          rw [skipsLonger inner more]
          dsimp only at parsed ⊢
          split at parsed
          next closing => cases parsed; rw [if_pos closing]
          next closing =>
            obtain ⟨⟨items,left⟩,read,same⟩ := Option.map_eq_some_iff.mp parsed
            cases same
            rw [if_neg closing,itemsLonger fuel read more k (by omega)]
            rfl
      next bracket =>
      rw [if_neg bracket]
      split at parsed
      next brace =>
        rw [if_pos brace]
        cases inner : tail.dropWhile blank with
        | nil => rw [inner] at parsed; cases parsed
        | cons d after =>
          rw [inner] at parsed
          rw [skipsLonger inner more]
          dsimp only at parsed ⊢
          split at parsed
          next closing => cases parsed; rw [if_pos closing]
          next closing =>
            obtain ⟨⟨members,left⟩,read,same⟩ := Option.map_eq_some_iff.mp parsed
            cases same
            rw [if_neg closing,membersLonger fuel read more k (by omega)]
            rfl
      next brace =>
      rw [if_neg brace]
      split at parsed
      next null_ => rw [if_pos null_]; exact expectLonger parsed more
      next null_ =>
      rw [if_neg null_]
      split at parsed
      next true_ => rw [if_pos true_]; exact expectLonger parsed more
      next true_ =>
      rw [if_neg true_]
      split at parsed
      next false_ => rw [if_pos false_]; exact expectLonger parsed more
      next false_ =>
        rw [if_neg false_]
        have goesOn : rest ≠ [] := by
          rcases ended with goesOn | noNumber
          · exact goesOn
          · rw [startsNumber,skips] at noNumber
            rw [readNumber,List.takeWhile_cons_of_neg (by simpa using noNumber)] at parsed
            cases parsed
        exact numberLonger parsed goesOn more

theorem itemsLonger (fuel : Nat) {items : List (Value N)} {rest text : Text}
    (parsed : parseItems f fuel text = some (items,rest)) (more : Text) (k : Nat)
    (enough : fuel ≤ k) : parseItems f k (text ++ more) = some (items,rest ++ more) := by
  cases fuel with
  | zero => cases parsed
  | succ fuel =>
    obtain ⟨k,rfl⟩ : ∃ j, k = j + 1 := ⟨k - 1,by omega⟩
    rw [parseItems.eq_def] at parsed ⊢
    simp only [bind,Option.bind_eq_some_iff] at parsed ⊢
    obtain ⟨⟨v,left⟩,read,parsed⟩ := parsed
    dsimp only at parsed
    cases skips : left.dropWhile blank with
    | nil => rw [skips] at parsed; cases parsed
    | cons c tail =>
      have goesOn : left ≠ [] := by
        rintro rfl
        cases skips
      refine ⟨(v,left ++ more),valueLonger fuel read (.inl goesOn) more k (by omega),?_⟩
      rw [skips] at parsed
      dsimp only
      rw [skipsLonger skips more]
      dsimp only at parsed ⊢
      split at parsed
      next comma =>
        obtain ⟨⟨items,left⟩,read,same⟩ := Option.map_eq_some_iff.mp parsed
        cases same
        rw [if_pos comma,itemsLonger fuel read more k (by omega)]
        rfl
      next comma =>
      rw [if_neg comma]
      split at parsed
      next closing => cases parsed; rw [if_pos closing]
      next => cases parsed

theorem membersLonger (fuel : Nat) {members : List (Text × Value N)} {rest text : Text}
    (parsed : parseMembers f fuel text = some (members,rest)) (more : Text) (k : Nat)
    (enough : fuel ≤ k) : parseMembers f k (text ++ more) = some (members,rest ++ more) := by
  cases fuel with
  | zero => cases parsed
  | succ fuel =>
    obtain ⟨k,rfl⟩ : ∃ j, k = j + 1 := ⟨k - 1,by omega⟩
    rw [parseMembers.eq_def] at parsed ⊢
    dsimp only at parsed ⊢
    cases skips : text.dropWhile blank with
    | nil => rw [skips] at parsed; cases parsed
    | cons c tail =>
      rw [skips] at parsed
      rw [skipsLonger skips more]
      dsimp only at parsed ⊢
      split at parsed
      next quote =>
        rw [if_pos quote]
        simp only [bind,Option.bind_eq_some_iff] at parsed ⊢
        obtain ⟨⟨key,left⟩,read,parsed⟩ := parsed
        refine ⟨(key,left ++ more),readLonger read more,?_⟩
        dsimp only at parsed ⊢
        cases colon : left.dropWhile blank with
        | nil => rw [colon] at parsed; cases parsed
        | cons c tail =>
          rw [colon] at parsed
          rw [skipsLonger colon more]
          dsimp only at parsed ⊢
          split at parsed
          next isColon =>
            rw [if_pos isColon]
            simp only [Option.bind_eq_some_iff] at parsed ⊢
            obtain ⟨⟨v,left⟩,read,parsed⟩ := parsed
            dsimp only at parsed
            cases skips : left.dropWhile blank with
            | nil => rw [skips] at parsed; cases parsed
            | cons c tail =>
              have goesOn : left ≠ [] := by
                rintro rfl
                cases skips
              refine ⟨(v,left ++ more),valueLonger fuel read (.inl goesOn) more k (by omega),?_⟩
              rw [skips] at parsed
              dsimp only
              rw [skipsLonger skips more]
              dsimp only at parsed ⊢
              split at parsed
              next comma =>
                obtain ⟨⟨members,left⟩,read,same⟩ := Option.map_eq_some_iff.mp parsed
                cases same
                rw [if_pos comma,membersLonger fuel read more k (by omega)]
                rfl
              next comma =>
              rw [if_neg comma]
              split at parsed
              next closing => cases parsed; rw [if_pos closing]
              next => cases parsed
          next => cases parsed
      next => cases parsed
end

theorem parsePrefix (lawful : f.Lawful) {v : Value N} (plain : Plain v) {front back : Text}
    (whole : front ++ back = write f v) (short : back ≠ [])
    (noNumber : startsNumber front = false) : parse f front = none := by
  unfold parse
  split
  next u rest parsed =>
    have longer := valueLonger front.length parsed (.inr noNumber) back (write f v).length (by
      rw [← whole,List.length_append]
      exact Nat.le_add_right _ _)
    have read := parseWritten lawful v plain (write f v).length [] le_rfl (by simp [Ends])
    rw [List.append_nil] at read
    rw [whole,read] at longer
    cases rest with
    | nil => exact absurd (Prod.mk.inj (Option.some.inj longer)).2.symm short
    | cons => cases (Prod.mk.inj (Option.some.inj longer)).2
  next => rfl

theorem objectPrefix {members : List (Text × Value N)} {front back : Text}
    (whole : front ++ back = write f (.object members)) : startsNumber front = false := by
  cases front with
  | nil => rfl
  | cons c front =>
    cases (List.cons.inj whole).1
    rfl

end

end ControlCenter.JsonText
