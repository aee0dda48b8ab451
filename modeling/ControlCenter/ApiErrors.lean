import ControlCenter.UrlPaths
import ControlCenter.VerificationCommand
import Mathlib.Data.List.Infix

/-! The errors of the daemon's API client: what a refused request becomes once its body is
read, cut and cleared of the bearer token. -/
namespace ControlCenter.ApiErrors
open JsonText
open VerificationCommand (isSpace trim)
open UrlPaths (upperHex)

def isLetter (c : CodeUnit) : Bool := (65 ≤ c.val && c.val ≤ 90) || (97 ≤ c.val && c.val ≤ 122)

def tokenUnit (c : CodeUnit) : Bool :=
  isLetter c || isDigit c || [46,95,126,43,47,45].contains c.val

def isToken (s : Text) : Bool :=
  !(s.rdropWhile (· = 61)).isEmpty && (s.rdropWhile (· = 61)).all tokenUnit

abbrev Token := {s : Text // isToken s = true}

def encodeUnit (c : CodeUnit) : Text :=
  if isLetter c || isDigit c || [45,95,46,33,126,42,39,40,41].contains c.val then [c]
  else [37,upperHex (c.val / 16),upperHex (c.val % 16)]

def encoded (s : Text) : Text := s.flatMap encodeUnit

def redacted : Text := ascii "[REDACTED]"

def replaceFrom (part shown : Text) : Nat → Text → Text
  | _,[] => []
  | skipped + 1,_::rest => replaceFrom part shown skipped rest
  | 0,c::rest =>
      if part <+: c::rest then shown ++ replaceFrom part shown (part.length - 1) rest
      else c::replaceFrom part shown 0 rest

def replaced (part shown s : Text) : Text :=
  if part <:+: s then replaceFrom part shown 0 s else s

def redactString (value token : Text) : Text :=
  if encoded token = token then replaced token redacted value
  else replaced (encoded token) redacted (replaced token redacted value)

def arrayIndex (key : Text) : Option Nat :=
  let n := key.foldl (fun n c => n * 10 + (c.val - 48)) 0
  if key = [48] then some 0
  else if !key.isEmpty && key.all isDigit && key.head? ≠ some 48 && n < 4294967295 then some n
  else none

section
variable {B : Type}

-- The members of an object in the order they are listed: array indices come first.
def entries (members : List (Option Nat × B)) : List B :=
  ((members.filterMap fun m => m.1.map fun n => (n,m.2)).mergeSort
    fun a b => a.1 ≤ b.1).map Prod.snd
  ++ (members.filter fun m => m.1.isNone).map Prod.snd

end

section
variable {N : Type}

mutual
def sanitizeErrorValue (token : Text) (depth : Nat) : Value N → Value N
  | .string s => .string (redactString s token)
  | .array items =>
      if 20 ≤ depth then .string (ascii "[TRUNCATED]")
      else .array (sanitizeItems token (depth + 1) items)
  | .object members =>
      if 20 ≤ depth then .string (ascii "[TRUNCATED]")
      else .object ((entries (sanitizeMembers token (depth + 1) members)).foldl assign [])
  | v => v

def sanitizeItems (token : Text) (depth : Nat) : List (Value N) → List (Value N)
  | [] => []
  | v::rest => sanitizeErrorValue token depth v::sanitizeItems token depth rest

def sanitizeMembers (token : Text) (depth : Nat) :
    List (Text × Value N) → List (Option Nat × Text × Value N)
  | [] => []
  | (key,v)::rest =>
      (arrayIndex key,redactString key token,sanitizeErrorValue token depth v)::
        sanitizeMembers token depth rest
end

structure ParsedBody (N : Type) where
  value : Value N
  isJson : Bool
  isEmpty : Bool

def parseBody (f : NumberFormat N) (text : Text) : ParsedBody N :=
  if text.isEmpty then ⟨.undefined,false,true⟩
  else match parse f text with
    | some v => ⟨v,true,false⟩
    | none => ⟨.string text,false,false⟩

structure ErrorDescriptor (N : Type) where
  code : Text
  message : Text
  details : Value N

def field (name : String) : Value N → Value N
  | .object members =>
      ((members.find? fun m => m.1 = ascii name).map Prod.snd).getD .undefined
  | _ => .undefined

-- The operator `??`.
def orElse (v other : Value N) : Value N :=
  match v with
  | .undefined | .null => other
  | v => v

def record (v : Value N) : Value N :=
  match v with
  | .object members => .object members
  | _ => .null

def onlyString (v : Value N) : Value N :=
  match v with
  | .string s => .string s
  | _ => .undefined

def httpCode (status : Nat) : Text := ascii ("http_" ++ toString status)

def httpMessage (status : Nat) : Text :=
  ascii ("Daemon request failed with HTTP " ++ toString status)

def shown : Value N → Option Text
  | .string s => if (trim s).isEmpty then none else some (trim s)
  | _ => none

def errorDescriptor (body : Value N) (status : Nat) : ErrorDescriptor N :=
  match body with
  | .object members =>
      let nested := record (field "error" (.object members))
      let code := orElse (field "code" nested) (field "code" (.object members))
      let message := orElse (field "message" nested)
        (orElse (field "message" (.object members)) (onlyString (field "error" (.object members))))
      let details := orElse (field "details" nested)
        (orElse (field "details" (.object members)) (.object members))
      ⟨(shown code).getD (httpCode status),
        ((shown message).map fun s => s.take 1000).getD (httpMessage status),details⟩
  | body =>
      ⟨httpCode status,((shown body).map fun s => s.take 1000).getD (httpMessage status),
        orElse body .null⟩

inductive Method where
  | get
  | post
  deriving DecidableEq

structure ApiError (N : Type) where
  message : Text
  status : Nat
  code : Text
  details : Value N
  method : Method
  path : Text
  requestId : Option Text
  replayed : Bool

abbrev Headers := String → Option Text

-- A header holds Latin-1.
def lowerUnit (c : CodeUnit) : CodeUnit :=
  if (65 ≤ c.val ∧ c.val ≤ 90) ∨ (192 ≤ c.val ∧ c.val ≤ 222 ∧ c.val ≠ 215)
  then Fin.ofNat 65536 (c.val + 32) else c

def responseWasReplayed (headers : Headers) : Bool :=
  match (headers "idempotency-replayed").orElse fun _ =>
    (headers "x-idempotency-replayed").orElse fun _ =>
    (headers "idempotency-status").orElse fun _ => headers "x-idempotency-status" with
  | some value =>
      (["1","true","replay","replayed","hit"].map ascii).contains ((trim value).map lowerUnit)
  | none => false

def responseRequestId (headers : Headers) : Option Text :=
  (headers "x-request-id").orElse fun _ => headers "request-id"

structure Request where
  method : Method
  route : Text

def Request.safePath (q : Request) : Text := 47::q.route.takeWhile (· ≠ 63)

structure Response where
  status : Nat
  headers : Headers
  -- Nothing where reading it failed.
  text : Option Text

def isOk (status : Nat) : Bool := 200 ≤ status && status < 300

def Response.ok (r : Response) : Bool := isOk r.status

structure ApiResponse (N : Type) where
  data : Value N
  status : Nat
  replayed : Bool
  requestId : Option Text

def Response.declaresJson (r : Response) : Bool :=
  match r.headers "content-type" with
  | some value => ascii "json" <:+: value.map lowerUnit
  | none => false

def hasData : Value N → Bool
  | .object members => members.any fun m => m.1 = ascii "data"
  | _ => false

def received (f : NumberFormat N) (token : Token) (q : Request) (r : Response) :
    Except (ApiError N) (ApiResponse N) :=
  let requestId := match responseRequestId r.headers with
    | some (c::rest) => some (redactString (c::rest) token.val)
    | _ => none
  let replayed := responseWasReplayed r.headers
  match r.text with
  | none => .error ⟨ascii "Unable to read the daemon response",r.status,ascii "response_read_error",
      .null,q.method,q.safePath,requestId,replayed⟩
  | some text =>
      let parsed := parseBody f text
      if r.ok then
        if !parsed.isEmpty && !parsed.isJson && r.declaresJson then
          .error ⟨ascii "Daemon returned malformed JSON",r.status,ascii "invalid_json_response",
            .null,q.method,q.safePath,requestId,replayed⟩
        else .ok ⟨if hasData parsed.value then field "data" parsed.value else parsed.value,
          r.status,replayed,requestId⟩
      else
        let descriptor := errorDescriptor parsed.value r.status
        .error ⟨redactString descriptor.message token.val,r.status,
          redactString descriptor.code token.val,sanitizeErrorValue token.val 0 descriptor.details,
          q.method,q.safePath,requestId,replayed⟩

end

abbrev Holed := List (Option CodeUnit)

def put (t : Text) : Holed → Text
  | [] => []
  | some c::x => c::put t x
  | none::x => t ++ put t x

def literal (s : Text) : Holed := s.map some

def begins (t : Text) : Holed → Prop
  | [] => False
  | some c::x => t <+: c::put t x ∨ begins t x
  | none::x => begins t x

instance (t x) : Decidable (begins t x) := by
  induction x with
  | nil => exact inferInstanceAs (Decidable False)
  | cons c x ih =>
    cases c with
    | some c => exact inferInstanceAs (Decidable (t <+: c::put t x ∨ begins t x))
    | none => exact ih

-- Outside its places the text does not spell the token as a URL would.
def Unspelled (t : Text) (x : Holed) : Prop := encoded t ≠ t → ¬encoded t <:+: put redacted x

instance (t x) : Decidable (Unspelled t x) :=
  inferInstanceAs (Decidable (encoded t ≠ t → ¬encoded t <:+: put redacted x))

def trimHoled (x : Holed) : Holed :=
  let space : Option CodeUnit → Bool := fun c => c.any isSpace
  (x.dropWhile space).rdropWhile space

def severed (length : Nat) : Nat → Holed → Nat
  | 0,_ => 0
  | _,[] => 0
  | n + 1,some _::x => severed length n x
  | n + 1,none::x => if n + 1 < length then n + 1 else severed length (n + 1 - length) x

theorem tokenUnits {c : CodeUnit} (unit : tokenUnit c = true ∨ c = 61) : isSpace c = false := by
  have small : c.val < 128 := by
    rcases unit with plain | equals
    · simp only [tokenUnit,isLetter,isDigit,Bool.or_eq_true,Bool.and_eq_true,decide_eq_true_eq,
        List.contains_eq_mem,List.mem_cons,List.not_mem_nil,or_false] at plain
      omega
    · subst equals
      decide
  have all : ∀ n : Fin 128, (tokenUnit (Fin.ofNat 65536 n.val) = true ∨
      (Fin.ofNat 65536 n.val : CodeUnit) = 61) →
      isSpace (Fin.ofNat 65536 n.val) = false := by decide +kernel
  have same : (Fin.ofNat 65536 c.val : CodeUnit) = c := Fin.ext (Nat.mod_eq_of_lt c.isLt)
  have here := all ⟨c.val,small⟩
  rw [same] at here
  exact here unit

theorem tokenMembers (t : Token) {c : CodeUnit} (inside : c ∈ t.val) :
    tokenUnit c = true ∨ c = 61 := by
  have valid := t.property
  simp only [isToken,Bool.and_eq_true,List.all_eq_true] at valid
  have parts : t.val.rdropWhile (· = 61) ++ t.val.rtakeWhile (· = 61) = t.val :=
    List.rdropWhile_append_rtakeWhile
  rw [← parts] at inside
  rcases List.mem_append.mp inside with body | padding
  · exact .inl (valid.2 c body)
  · exact .inr (by simpa using List.mem_rtakeWhile_imp padding)

theorem tokenPresent (t : Token) : t.val ≠ [] := by
  intro empty
  have valid := t.property
  rw [empty] at valid
  exact absurd valid (by decide)

theorem putAppend (t : Text) (x y : Holed) : put t (x ++ y) = put t x ++ put t y := by
  induction x with
  | nil => rfl
  | cons c x ih => cases c <;> simp [put,ih]

theorem putLiteral (t s : Text) : put t (literal s) = s := by
  induction s with
  | nil => rfl
  | cons c s ih => exact congrArg (c::·) ih

theorem putEmpty (t : Token) (x : Holed) : (put t.val x).isEmpty = x.isEmpty := by
  cases x with
  | nil => rfl
  | cons c x =>
    cases c with
    | some c => rfl
    | none => simp [put,tokenPresent t]

theorem dropPut (t : Token) (x : Holed) :
    (put t.val x).dropWhile isSpace = put t.val (x.dropWhile fun c => c.any isSpace) := by
  induction x with
  | nil => rfl
  | cons c x ih =>
    cases c with
    | some c =>
      simp only [put,List.dropWhile_cons,Option.any_some]
      split
      · exact ih
      · rfl
    | none =>
      obtain ⟨a,rest,first⟩ := List.exists_cons_of_ne_nil (tokenPresent t)
      have solid : isSpace a = false :=
        tokenUnits (tokenMembers t (by rw [first]; exact List.mem_cons_self))
      simp [put,first,solid]

theorem rdropPut (t : Token) (x : Holed) :
    (put t.val x).rdropWhile isSpace = put t.val (x.rdropWhile fun c => c.any isSpace) := by
  induction x using List.reverseRecOn with
  | nil => rfl
  | append_singleton x c ih =>
    cases c with
    | some c =>
      rw [putAppend,show put t.val [some c] = [c] from rfl,List.rdropWhile_concat,
        List.rdropWhile_concat,Option.any_some,ih]
      split
      · rfl
      · rw [putAppend]
        rfl
    | none =>
      obtain ⟨rest,a,last⟩ := List.eq_nil_or_concat t.val |>.resolve_left (tokenPresent t)
      have solid : isSpace a = false :=
        tokenUnits (tokenMembers t (by simp [last]))
      rw [List.rdropWhile_concat,putAppend,show put t.val [none] = rest ++ [a] by simp [put,last],
        ← List.append_assoc,List.rdropWhile_concat]
      simp [solid,putAppend,put,last]

theorem trimPut (t : Token) (x : Holed) : trim (put t.val x) = put t.val (trimHoled x) := by
  rw [trim,dropPut,rdropPut]
  rfl

theorem replaceSkip (part shown s rest : Text) :
    replaceFrom part shown s.length (s ++ rest) = replaceFrom part shown 0 rest := by
  induction s with
  | nil => rfl
  | cons c s ih => exact ih

theorem replaceAbsent {part s : Text} (shown : Text) (absent : ¬part <:+: s) :
    replaceFrom part shown 0 s = s := by
  induction s with
  | nil => rfl
  | cons c s ih =>
    rw [replaceFrom,if_neg fun first => absent first.isInfix,
      ih fun later => absent (List.infix_cons later)]

theorem replacedFrom (part shown s : Text) : replaced part shown s = replaceFrom part shown 0 s := by
  unfold replaced
  split
  next => rfl
  next absent => exact (replaceAbsent shown absent).symm

theorem replacePut (t : Token) (shown : Text) {x : Holed} (alone : ¬begins t.val x) :
    replaceFrom t.val shown 0 (put t.val x) = put shown x := by
  induction x with
  | nil => rfl
  | cons c x ih =>
    cases c with
    | some c =>
      simp only [begins,not_or] at alone
      rw [put,replaceFrom,if_neg alone.1,ih alone.2]
      rfl
    | none =>
      obtain ⟨a,rest,first⟩ := List.exists_cons_of_ne_nil (tokenPresent t)
      have here : t.val <+: a::(rest ++ put t.val x) := ⟨put t.val x,by rw [first]; rfl⟩
      have skipped : t.val.length - 1 = rest.length := by rw [first]; rfl
      calc replaceFrom t.val shown 0 (put t.val (none::x))
          = replaceFrom t.val shown 0 (a::(rest ++ put t.val x)) := by rw [put]; simp [first]
        _ = shown ++ replaceFrom t.val shown rest.length (rest ++ put t.val x) := by
          rw [replaceFrom,if_pos here,skipped]
        _ = shown ++ put shown x := by rw [replaceSkip,ih alone]

theorem redactPut (t : Token) {x : Holed} (alone : ¬begins t.val x)
    (unspelled : Unspelled t.val x) : redactString (put t.val x) t.val = put redacted x := by
  have taken : replaced t.val redacted (put t.val x) = put redacted x :=
    (replacedFrom _ _ _).trans (replacePut t redacted alone)
  unfold redactString
  split
  next => exact taken
  next different => rw [taken,replaced,if_neg (unspelled different)]

def cut (t : Text) : Nat → Holed → Holed
  | 0,_ => []
  | _,[] => []
  | n + 1,some c::x => some c::cut t n x
  | n + 1,none::x =>
      if n + 1 < t.length then literal (t.take (n + 1)) else none::cut t (n + 1 - t.length) x

theorem cutPut (t : Text) (n : Nat) (x : Holed) : put t (cut t n x) = (put t x).take n := by
  fun_induction cut t n x with
  | case1 => simp [put]
  | case2 => simp [put]
  | case3 n c x ih => simp [put,ih]
  | case4 n x short =>
    rw [putLiteral,put,List.take_append_of_le_length (by omega)]
  | case5 n x long ih =>
    rw [put,put,ih,List.take_append,List.take_of_length_le (show t.length ≤ n + 1 by omega)]

theorem literalBegins {t : Token} {s : Text} (short : s.length < t.val.length) :
    ¬begins t.val (literal s) := by
  induction s with
  | nil => exact id
  | cons c s ih =>
    rintro (first | later)
    · have bound := first.length_le
      rw [show (c::put t.val (List.map some s)) = c::s from congrArg (c::·) (putLiteral t.val s)]
        at bound
      exact absurd short (by omega)
    · exact ih (by simp only [List.length_cons] at short; omega) later

theorem cutBegins (t : Token) (n : Nat) {x : Holed} (alone : ¬begins t.val x) :
    ¬begins t.val (cut t.val n x) := by
  fun_induction cut t.val n x with
  | case1 => exact id
  | case2 => exact id
  | case3 n c x ih =>
    simp only [begins,not_or] at alone ⊢
    refine ⟨fun first => alone.1 (first.trans ?_),ih alone.2⟩
    rw [cutPut]
    exact List.cons_prefix_cons.mpr ⟨rfl,List.take_prefix n _⟩
  | case4 n x short =>
    exact literalBegins (by rw [List.length_take]; omega)
  | case5 n x long ih => exact ih alone

theorem cutSame {t u : Token} (n : Nat) (same : t.val.length = u.val.length) (x : Holed) :
    put redacted (cut t.val n x) = put redacted (cut u.val n x) ↔
      t.val.take (severed t.val.length n x) = u.val.take (severed t.val.length n x) := by
  fun_induction severed t.val.length n x with
  | case1 => simp [cut]
  | case2 => simp [cut]
  | case3 n c x ih => simp [cut,put,ih]
  | case4 n x short => simp [cut,short,same ▸ short,putLiteral]
  | case5 n x long ih => simp [cut,long,put,← same,ih]

section
variable {N : Type}

def isScalar : Value N → Bool
  | .string _ | .array _ | .object _ => false
  | _ => true

def scalarOnly (v : Value N) : {v : Value N // isScalar v = true} :=
  if plain : isScalar v = true then ⟨v,plain⟩ else ⟨.undefined,rfl⟩

def bareValue (f : NumberFormat N) (s : Text) : {v : Value N // isScalar v = true} :=
  if s = ascii "null" then ⟨.null,rfl⟩
  else if s = ascii "true" then ⟨.boolean true,rfl⟩
  else if s = ascii "false" then ⟨.boolean false,rfl⟩
  else scalarOnly (f.read s)

-- A value with places for a token in its texts, its names and what it has without quotes.
inductive Template (N : Type) where
  | scalar (v : Value N) (plain : isScalar v = true)
  | string (x : Holed)
  | bare (x : Holed)
  | array (items : List (Template N))
  | object (members : List (Holed × Template N))

section
variable (f : NumberFormat N) (t : Text)

mutual
def Template.fill : Template N → Value N
  | .scalar v _ => v
  | .string x => .string (put t x)
  | .bare x => (bareValue f (put t x)).val
  | .array items => .array (fillItems items)
  | .object members => .object (fillMembers members)

def fillItems : List (Template N) → List (Value N)
  | [] => []
  | v::rest => v.fill::fillItems rest

def fillMembers : List (Holed × Template N) → List (Text × Value N)
  | [] => []
  | (x,v)::rest => (put t x,v.fill)::fillMembers rest
end

mutual
def Template.Clear (depth : Nat) : Template N → Prop
  | .scalar _ _ | .bare _ => True
  | .string x => ¬begins t x
  | .array items => depth < 20 → ItemsClear (depth + 1) items
  | .object members => depth < 20 → MembersClear (depth + 1) members

def ItemsClear (depth : Nat) : List (Template N) → Prop
  | [] => True
  | v::rest => v.Clear depth ∧ ItemsClear depth rest

def MembersClear (depth : Nat) : List (Holed × Template N) → Prop
  | [] => True
  | (x,v)::rest => ¬begins t x ∧ v.Clear depth ∧ MembersClear depth rest
end

mutual
def Template.Spared (depth : Nat) : Template N → Prop
  | .scalar _ _ | .bare _ => True
  | .string x => Unspelled t x
  | .array items => depth < 20 → ItemsSpared (depth + 1) items
  | .object members => depth < 20 → MembersSpared (depth + 1) members

def ItemsSpared (depth : Nat) : List (Template N) → Prop
  | [] => True
  | v::rest => v.Spared depth ∧ ItemsSpared depth rest

def MembersSpared (depth : Nat) : List (Holed × Template N) → Prop
  | [] => True
  | (x,v)::rest => Unspelled t x ∧ (none ∈ x → arrayIndex (put t x) = none) ∧ v.Spared depth ∧
      MembersSpared depth rest
end

end

inductive Shown (N : Type) where
  | fixed (v : Value N)
  | bare (x : Holed)
  | array (items : List (Shown N))
  | object (members : List (Text × Shown N))

section
variable (f : NumberFormat N) (t : Text)

mutual
def Shown.fill : Shown N → Value N
  | .fixed v => v
  | .bare x => (bareValue f (put t x)).val
  | .array items => .array (fillShownItems items)
  | .object members => .object (fillShownMembers members)

def fillShownItems : List (Shown N) → List (Value N)
  | [] => []
  | v::rest => v.fill::fillShownItems rest

def fillShownMembers : List (Text × Shown N) → List (Text × Value N)
  | [] => []
  | (key,v)::rest => (key,v.fill)::fillShownMembers rest
end

end

mutual
def Shown.bares : Shown N → List Holed
  | .fixed _ => []
  | .bare x => [x]
  | .array items => itemBares items
  | .object members => memberBares members

def itemBares : List (Shown N) → List Holed
  | [] => []
  | v::rest => v.bares ++ itemBares rest

def memberBares : List (Text × Shown N) → List Holed
  | [] => []
  | (_,v)::rest => v.bares ++ memberBares rest
end

mutual
def Template.shows (depth : Nat) : Template N → Shown N
  | .scalar v _ => .fixed v
  | .string x => .fixed (.string (put redacted x))
  | .bare x => .bare x
  | .array items =>
      if 20 ≤ depth then .fixed (.string (ascii "[TRUNCATED]"))
      else .array (showsItems (depth + 1) items)
  | .object members =>
      if 20 ≤ depth then .fixed (.string (ascii "[TRUNCATED]"))
      else .object ((entries (showsMembers (depth + 1) members)).foldl assign [])

def showsItems (depth : Nat) : List (Template N) → List (Shown N)
  | [] => []
  | v::rest => v.shows depth::showsItems depth rest

def showsMembers (depth : Nat) : List (Holed × Template N) → List (Option Nat × Text × Shown N)
  | [] => []
  | (x,v)::rest =>
      (if none ∈ x then none else arrayIndex (put [] x),put redacted x,v.shows depth)::
        showsMembers depth rest
end

def Template.undefined : Template N := .scalar .undefined rfl
def Template.null : Template N := .scalar .null rfl

def Template.members : Template N → List (Holed × Template N)
  | .object members => members
  | _ => []

def Template.field (name : String) (v : Template N) : Template N :=
  ((v.members.find? fun m => m.1 = literal (ascii name)).map Prod.snd).getD .undefined

def Template.orElse (v other : Template N) : Template N :=
  match v with
  | .scalar .undefined _ | .scalar .null _ => other
  | v => v

def Template.onlyString : Template N → Template N
  | .string x => .string x
  | _ => .undefined

def Template.shown : Template N → Option Holed
  | .string x => if (trimHoled x).isEmpty then none else some (trimHoled x)
  | _ => none

def Template.code (v : Template N) : Option Holed :=
  (((v.field "error").field "code").orElse (v.field "code")).shown

def Template.message (v : Template N) : Option Holed :=
  match v with
  | .object members =>
      let v := Template.object members
      (((v.field "error").field "message").orElse
        ((v.field "message").orElse (v.field "error").onlyString)).shown
  | v => v.shown

def Template.details (v : Template N) : Template N :=
  match v with
  | .object members =>
      let v := Template.object members
      ((v.field "error").field "details").orElse ((v.field "details").orElse v)
  | v => v.orElse .null

def Template.NotNull (f : NumberFormat N) (t : Text) : Template N → Prop
  | .bare x => (bareValue f (put t x)).val ≠ .null ∧ (bareValue f (put t x)).val ≠ .undefined
  | _ => True

-- No name with the token in it reads as one of these, and what they name is no null made of it.
def Unread (f : NumberFormat N) (t : Text) (names : List String) (v : Template N) : Prop :=
  ∀ m ∈ v.members, (none ∈ m.1 → put t m.1 ∉ names.map ascii) ∧
    (m.1 ∈ names.map (fun name => literal (ascii name)) → m.2.NotNull f t)

theorem putSame {x : Holed} (t u : Text) (whole : none ∉ x) : put t x = put u x := by
  induction x with
  | nil => rfl
  | cons c x ih =>
    cases c with
    | some c => exact congrArg (c::·) (ih fun inside => whole (List.mem_cons_of_mem _ inside))
    | none => exact absurd List.mem_cons_self whole

section
variable {B C : Type} (g : B → C)

theorem entriesMap (members : List (Option Nat × B)) :
    entries (members.map fun m => (m.1,g m.2)) = (entries members).map g := by
  have indexed : (members.map fun m => (m.1,g m.2)).filterMap
      (fun m => m.1.map fun n => (n,m.2)) =
        (members.filterMap fun m => m.1.map fun n => (n,m.2)).map fun m => (m.1,g m.2) := by
    rw [List.filterMap_map,List.map_filterMap]
    refine List.filterMap_congr fun m _ => ?_
    obtain ⟨place,b⟩ := m
    cases place <;> rfl
  have plain : (members.map fun m => (m.1,g m.2)).filter (fun m => m.1.isNone) =
      (members.filter fun m => m.1.isNone).map fun m => (m.1,g m.2) := List.filter_map ..
  have sorted := List.map_mergeSort (r := fun a b => decide (a.1 ≤ b.1))
    (s := fun a b => decide (a.1 ≤ b.1)) (f := fun m : Nat × B => (m.1,g m.2))
    (l := members.filterMap fun m => m.1.map fun n => (n,m.2)) fun _ _ _ _ => rfl
  simp only [entries,indexed,plain,← sorted,List.map_append,List.map_map]
  rfl

theorem assignMap (members before : List (Text × B)) :
    (members.foldl assign before).map (fun m => (m.1,g m.2)) =
      (members.map fun m => (m.1,g m.2)).foldl assign (before.map fun m => (m.1,g m.2)) := by
  induction members generalizing before with
  | nil => rfl
  | cons member rest ih =>
    have names : (before.map fun m => (m.1,g m.2)).map Prod.fst = before.map Prod.fst := by
      rw [List.map_map]
      rfl
    have next : (assign before member).map (fun m => (m.1,g m.2)) =
        assign (before.map fun m => (m.1,g m.2)) (member.1,g member.2) := by
      unfold assign
      rw [names]
      split
      · rw [List.map_map,List.map_map]
        refine List.map_congr_left fun m _ => ?_
        simp only [Function.comp]
        split <;> rfl
      · rw [List.map_append]
        rfl
    rw [List.foldl_cons,ih,next]
    rfl

end

theorem listedMap {B C : Type} (g : B → C) (members : List (Option Nat × Text × B)) :
    (entries (members.map fun m => (m.1,m.2.1,g m.2.2))).foldl assign [] =
      ((entries members).foldl assign []).map fun m => (m.1,g m.2) := by
  rw [assignMap]
  exact congrArg (List.foldl assign []) (entriesMap (fun m => (m.1,g m.2)) members)

section
variable {f : NumberFormat N}

theorem fillShownMap (t : Text) (members : List (Text × Shown N)) :
    fillShownMembers f t members = members.map fun m => (m.1,m.2.fill f t) := by
  induction members with
  | nil => rfl
  | cons m rest ih =>
    obtain ⟨key,v⟩ := m
    rw [fillShownMembers,ih]
    rfl

theorem sanitizeScalar {token : Text} {depth : Nat} {v : Value N} (plain : isScalar v = true) :
    sanitizeErrorValue token depth v = v := by
  cases v with
  | string | array | object => exact absurd plain Bool.false_ne_true
  | _ => rfl

mutual
theorem sanitizeShows {t : Token} {depth : Nat} (v : Template N) (clear : v.Clear t.val depth)
    (spared : v.Spared t.val depth) : sanitizeErrorValue t.val depth (v.fill f t.val) =
      (v.shows depth).fill f t.val := by
  cases v with
  | scalar v plain => exact sanitizeScalar plain
  | bare x => exact sanitizeScalar (bareValue f (put t.val x)).property
  | string x =>
    simp only [Template.fill,sanitizeErrorValue,redactPut t clear spared,Template.shows,Shown.fill]
  | array items =>
    simp only [Template.fill,sanitizeErrorValue,Template.shows]
    split
    next => rfl
    next shallow =>
      rw [itemsShow items (clear (by omega)) (spared (by omega))]
      rfl
  | object members =>
    simp only [Template.fill,sanitizeErrorValue,Template.shows]
    split
    next => rfl
    next shallow =>
      rw [membersShow members (clear (by omega)) (spared (by omega)),listedMap,Shown.fill,
        fillShownMap]

theorem itemsShow {t : Token} {depth : Nat} (items : List (Template N))
    (clear : ItemsClear t.val depth items) (spared : ItemsSpared t.val depth items) :
    sanitizeItems t.val depth (fillItems f t.val items) =
      fillShownItems f t.val (showsItems depth items) := by
  cases items with
  | nil => rfl
  | cons v rest =>
    simp only [fillItems,sanitizeItems,showsItems,fillShownItems,
      sanitizeShows v clear.1 spared.1,itemsShow rest clear.2 spared.2]

theorem membersShow {t : Token} {depth : Nat} (members : List (Holed × Template N))
    (clear : MembersClear t.val depth members) (spared : MembersSpared t.val depth members) :
    sanitizeMembers t.val depth (fillMembers f t.val members) =
      (showsMembers depth members).map fun m => (m.1,m.2.1,m.2.2.fill f t.val) := by
  cases members with
  | nil => rfl
  | cons m rest =>
    obtain ⟨x,v⟩ := m
    obtain ⟨alone,inner,others⟩ := clear
    obtain ⟨unspelled,index,inner',others'⟩ := spared
    have place : arrayIndex (put t.val x) = if none ∈ x then none else arrayIndex (put [] x) := by
      split
      next holed => exact index holed
      next whole => rw [putSame t.val [] whole]
    simp only [fillMembers,sanitizeMembers,showsMembers,List.map_cons,place,
      redactPut t alone unspelled,sanitizeShows v inner inner',membersShow rest others others']
end

mutual
theorem shownSame (t u : Text) (v : Shown N) : v.fill f t = v.fill f u ↔
    ∀ x ∈ v.bares, bareValue f (put t x) = bareValue f (put u x) := by
  cases v with
  | fixed v => simp [Shown.fill,Shown.bares]
  | bare x => simp [Shown.fill,Shown.bares,Subtype.ext_iff]
  | array items => simpa [Shown.fill,Shown.bares] using shownItemsSame t u items
  | object members => simpa [Shown.fill,Shown.bares] using shownMembersSame t u members

theorem shownItemsSame (t u : Text) (items : List (Shown N)) :
    fillShownItems f t items = fillShownItems f u items ↔
      ∀ x ∈ itemBares items, bareValue f (put t x) = bareValue f (put u x) := by
  cases items with
  | nil => simp [fillShownItems,itemBares]
  | cons v rest =>
    rw [fillShownItems,fillShownItems,List.cons.injEq,shownSame t u v,shownItemsSame t u rest,
      itemBares,List.forall_mem_append]

theorem shownMembersSame (t u : Text) (members : List (Text × Shown N)) :
    fillShownMembers f t members = fillShownMembers f u members ↔
      ∀ x ∈ memberBares members, bareValue f (put t x) = bareValue f (put u x) := by
  cases members with
  | nil => simp [fillShownMembers,memberBares]
  | cons m rest =>
    obtain ⟨key,v⟩ := m
    rw [fillShownMembers,fillShownMembers,List.cons.injEq,Prod.mk.injEq,shownSame t u v,
      shownMembersSame t u rest,memberBares,List.forall_mem_append]
    simp
end

theorem orElsePut (t : Text) {v : Template N} (notNull : v.NotNull f t) (other : Template N) :
    orElse (v.fill f t) (other.fill f t) = (v.orElse other).fill f t := by
  cases v with
  | scalar v plain => cases v <;> rfl
  | bare x =>
    unfold orElse
    split
    next null => exact absurd null notNull.2
    next null => exact absurd null notNull.1
    next => rfl
  | _ => rfl

theorem shownScalar {v : Value N} (plain : isScalar v = true) : shown v = none := by
  cases v with
  | string => exact absurd plain Bool.false_ne_true
  | _ => rfl

theorem shownPut (t : Token) (v : Template N) :
    shown (v.fill f t.val) = v.shown.map (put t.val) := by
  cases v with
  | scalar v plain => exact shownScalar plain
  | bare x => exact shownScalar (bareValue f (put t.val x)).property
  | string x =>
    simp only [Template.fill,shown,Template.shown,trimPut,putEmpty]
    split <;> rfl
  | array items => rfl
  | object members => rfl

theorem onlyStringScalar {v : Value N} (plain : isScalar v = true) :
    onlyString v = .undefined := by
  cases v with
  | string => exact absurd plain Bool.false_ne_true
  | _ => rfl

theorem onlyStringPut (t : Text) (v : Template N) :
    onlyString (v.fill f t) = v.onlyString.fill f t := by
  cases v with
  | scalar v plain => exact onlyStringScalar plain
  | bare x => exact onlyStringScalar (bareValue f (put t x)).property
  | _ => rfl

theorem fieldNone {name : String} {v : Value N} (plain : isScalar v = true) :
    field name v = .undefined := by
  cases v with
  | object members => exact absurd plain Bool.false_ne_true
  | _ => rfl

theorem nameIff {t name : Text} {x : Holed} (unread : none ∈ x → put t x ≠ name) :
    put t x = name ↔ x = literal name := by
  refine ⟨fun reads => ?_,fun same => same ▸ putLiteral t name⟩
  induction x generalizing name with
  | nil => exact reads ▸ rfl
  | cons c x ih =>
    cases c with
    | none => exact absurd reads (unread List.mem_cons_self)
    | some c =>
      subst reads
      exact congrArg (some c::·)
        (ih (fun inside _ => unread (List.mem_cons_of_mem _ inside) rfl) rfl)

theorem fieldPut {t : Text} {names : List String} {name : String} {v : Template N}
    (unread : Unread f t names v) (listed : name ∈ names) :
    field name (v.fill f t) = (v.field name).fill f t := by
  cases v with
  | scalar v plain => exact fieldNone plain
  | bare x => exact fieldNone (bareValue f (put t x)).property
  | string x => rfl
  | array items => rfl
  | object members =>
    simp only [Template.fill,field,Template.field,Template.members]
    induction members with
    | nil => rfl
    | cons m rest ih =>
      obtain ⟨x,v⟩ := m
      have here : put t x = ascii name ↔ x = literal (ascii name) :=
        nameIff fun holed same => (unread (x,v) List.mem_cons_self).1 holed
          (List.mem_map.mpr ⟨name,listed,same.symm⟩)
      have later := ih fun m inside => unread m (List.mem_cons_of_mem _ inside)
      by_cases reads : x = literal (ascii name)
      · simp only [fillMembers,List.find?_cons,decide_eq_true (here.mpr reads),
          decide_eq_true reads]
        rfl
      · simp only [fillMembers,List.find?_cons,decide_eq_false (mt here.mp reads),
          decide_eq_false reads]
        exact later

theorem fieldNotNull {t : Text} {names : List String} {name : String} {v : Template N}
    (unread : Unread f t names v) (listed : name ∈ names) : (v.field name).NotNull f t := by
  unfold Template.field
  cases found : v.members.find? fun m => m.1 = literal (ascii name) with
  | none => trivial
  | some m =>
    have named : m.1 = literal (ascii name) := by simpa using List.find?_some found
    exact (unread m (List.mem_of_find?_eq_some found)).2
      (named ▸ List.mem_map.mpr ⟨name,listed,rfl⟩)

theorem recordScalar {name : String} {v : Value N} (plain : isScalar v = true) :
    field name (record v) = .undefined := by
  cases v with
  | object members => exact absurd plain Bool.false_ne_true
  | _ => rfl

theorem recordPut {t : Text} {names : List String} {name : String} {v : Template N}
    (unread : Unread f t names v) (listed : name ∈ names) :
    field name (record (v.fill f t)) = (v.field name).fill f t := by
  cases v with
  | scalar v plain => exact recordScalar plain
  | bare x => exact recordScalar (bareValue f (put t x)).property
  | string x => rfl
  | array items => rfl
  | object members => exact fieldPut unread listed

def bodyNames : List String := ["error","code","message","details"]
def nestedNames : List String := ["code","message","details"]

theorem describedScalar {v : Value N} (plain : isScalar v = true) (status : Nat) :
    errorDescriptor v status = ⟨httpCode status,httpMessage status,orElse v .null⟩ := by
  cases v with
  | string | array | object => exact absurd plain Bool.false_ne_true
  | _ => rfl

theorem described {t : Token} {v : Template N} (status : Nat) (whole : v.NotNull f t.val)
    (body : Unread f t.val bodyNames v) (nested : Unread f t.val nestedNames (v.field "error")) :
    errorDescriptor (v.fill f t.val) status =
      ⟨(v.code.map (put t.val)).getD (httpCode status),
        ((v.message.map (put t.val)).map fun s => s.take 1000).getD (httpMessage status),
        v.details.fill f t.val⟩ := by
  cases v with
  | scalar v plain =>
    cases v with
    | string | array | object => exact absurd plain Bool.false_ne_true
    | _ => rfl
  | bare x =>
    have fallen : orElse ((Template.bare x).fill f t.val) (Template.null.fill f t.val) =
        ((Template.bare x).orElse .null).fill f t.val := orElsePut t.val whole .null
    rw [Template.fill,describedScalar (bareValue f (put t.val x)).property]
    exact congrArg (ErrorDescriptor.mk (httpCode status) (httpMessage status)) fallen
  | string x =>
    have read := shownPut (f := f) t (.string x : Template N)
    simp only [Template.fill] at read
    simp only [Template.fill,errorDescriptor,Template.code,Template.message,Template.details,read]
    rfl
  | array items => rfl
  | object members =>
    have own : ∀ name ∈ bodyNames, field name (.object (fillMembers f t.val members)) =
        (Template.field name (.object members)).fill f t.val :=
      fun name listed => fieldPut body listed
    have inner : ∀ name ∈ nestedNames,
        field name (record ((Template.field "error" (.object members)).fill f t.val)) =
          (Template.field name (Template.field "error" (.object members))).fill f t.val :=
      fun name listed => recordPut nested listed
    have outerNull : ∀ name ∈ bodyNames,
        (Template.field name (.object members)).NotNull f t.val :=
      fun name listed => fieldNotNull body listed
    have innerNull : ∀ name ∈ nestedNames,
        (Template.field name (Template.field "error" (.object members))).NotNull f t.val :=
      fun name listed => fieldNotNull nested listed
    have object : Value.object (fillMembers f t.val members) =
        (Template.object members).fill f t.val := rfl
    simp only [Template.fill,errorDescriptor,Template.code,Template.message,Template.details,
      own "error" (by decide),own "code" (by decide),own "message" (by decide),
      own "details" (by decide),inner "code" (by decide),inner "message" (by decide),
      inner "details" (by decide),onlyStringPut]
    rw [object,orElsePut t.val (innerNull "code" (by decide)),
      orElsePut t.val (outerNull "message" (by decide)),
      orElsePut t.val (innerNull "message" (by decide)),
      orElsePut t.val (outerNull "details" (by decide)),
      orElsePut t.val (innerNull "details" (by decide)),shownPut,shownPut]

structure ResponseTemplate (N : Type) where
  status : Nat
  headers : Headers
  requestId : Option Holed
  otherRequestId : Option Holed
  body : Option (Template N)

def ResponseTemplate.named (w : ResponseTemplate N) : Option Holed :=
  w.requestId.orElse fun _ => w.otherRequestId

structure Carries (f : NumberFormat N) (t : Text) (w : ResponseTemplate N) (r : Response) : Prop where
  status : r.status = w.status
  requestId : r.headers "x-request-id" = w.requestId.map (put t)
  otherRequestId : r.headers "request-id" = w.otherRequestId.map (put t)
  headers : ∀ name, name ∉ ["x-request-id","request-id"] → r.headers name = w.headers name
  body : r.text.map (fun text => (parseBody f text).value) = w.body.map (Template.fill f t)

def messageHoled (t : Text) (status : Nat) (v : Template N) : Holed :=
  (v.message.map (cut t 1000)).getD (literal (httpMessage status))

def codeHoled (status : Nat) (v : Template N) : Holed := v.code.getD (literal (httpCode status))

structure BodyClear (t : Text) (status : Nat) (v : Template N) : Prop where
  code : ¬begins t (codeHoled status v)
  message : ¬begins t (v.message.getD (literal (httpMessage status)))
  details : v.details.Clear t 0

structure Clear (t : Text) (w : ResponseTemplate N) : Prop where
  requestId : ∀ x, w.named = some x → ¬begins t x
  body : ∀ v, w.body = some v → BodyClear t w.status v

structure BodySpared (f : NumberFormat N) (t : Text) (status : Nat) (v : Template N) : Prop where
  whole : v.NotNull f t
  names : Unread f t bodyNames v
  nested : Unread f t nestedNames (v.field "error")
  code : Unspelled t (codeHoled status v)
  message : Unspelled t (messageHoled t status v)
  details : v.details.Spared t 0

structure Spared (f : NumberFormat N) (t : Text) (w : ResponseTemplate N) : Prop where
  requestId : ∀ x, w.named = some x → Unspelled t x
  body : ∀ v, w.body = some v → BodySpared f t w.status v

def ResponseTemplate.severed (length : Nat) (w : ResponseTemplate N) : Nat :=
  match w.body.bind Template.message with
  | some x => ApiErrors.severed length 1000 x
  | none => 0

def ResponseTemplate.bares (w : ResponseTemplate N) : List Holed :=
  match w.body with
  | some v => (v.details.shows 0).bares
  | none => []

def shownId (w : ResponseTemplate N) : Option Text :=
  match w.named with
  | some (c::x) => some (put redacted (c::x))
  | _ => none

theorem idShown {t : Token} {w : ResponseTemplate N} {r : Response} (carries : Carries f t.val w r)
    (clear : Clear t.val w) (spared : Spared f t.val w) :
    (match responseRequestId r.headers with
      | some (c::rest) => some (redactString (c::rest) t.val)
      | _ => none) = shownId w := by
  have named : responseRequestId r.headers = w.named.map (put t.val) := by
    rw [responseRequestId,ResponseTemplate.named,carries.requestId,carries.otherRequestId]
    cases w.requestId <;> rfl
  rw [named,shownId]
  cases name : w.named with
  | none => rfl
  | some x =>
    cases x with
    | nil => rfl
    | cons c x =>
      have there : (put t.val (c::x)).isEmpty = false := putEmpty t (c::x)
      have shows := redactPut t (clear.requestId (c::x) name) (spared.requestId (c::x) name)
      rw [Option.map_some]
      cases whole : put t.val (c::x) with
      | nil =>
        rw [whole] at there
        exact absurd there.symm Bool.false_ne_true
      | cons a rest => exact congrArg some (whole ▸ shows)

theorem replayedShown {t : Text} {w : ResponseTemplate N} {r : Response}
    (carries : Carries f t w r) : responseWasReplayed r.headers = responseWasReplayed w.headers := by
  simp only [responseWasReplayed,carries.headers _ (show "idempotency-replayed" ∉ _ by decide),
    carries.headers _ (show "x-idempotency-replayed" ∉ _ by decide),
    carries.headers _ (show "idempotency-status" ∉ _ by decide),
    carries.headers _ (show "x-idempotency-status" ∉ _ by decide)]

theorem messageShown {t : Token} {status : Nat} {v : Template N} (clear : BodyClear t.val status v)
    (spared : BodySpared f t.val status v) :
    redactString (((v.message.map (put t.val)).map fun s => s.take 1000).getD (httpMessage status))
      t.val = put redacted (messageHoled t.val status v) := by
  have alone := clear.message
  have unspelled := spared.message
  rw [messageHoled] at unspelled ⊢
  cases message : v.message with
  | none =>
    rw [message] at alone unspelled
    have shows := redactPut t alone unspelled
    rw [Option.getD_none,putLiteral] at shows
    exact shows
  | some x =>
    rw [message] at alone unspelled
    have shows := redactPut t (cutBegins t 1000 alone) unspelled
    rw [cutPut] at shows
    exact shows

theorem codeShown {t : Token} {status : Nat} {v : Template N} (clear : BodyClear t.val status v)
    (spared : BodySpared f t.val status v) :
    redactString ((v.code.map (put t.val)).getD (httpCode status)) t.val =
      put redacted (codeHoled status v) := by
  have shows := redactPut t clear.code spared.code
  rw [codeHoled] at shows ⊢
  cases code : v.code with
  | none =>
    rw [code,Option.getD_none,putLiteral] at shows
    exact shows
  | some x =>
    rw [code] at shows
    exact shows

def unreadable (q : Request) (w : ResponseTemplate N) : ApiError N :=
  ⟨ascii "Unable to read the daemon response",w.status,ascii "response_read_error",.null,q.method,
    q.safePath,shownId w,responseWasReplayed w.headers⟩

def refusal (f : NumberFormat N) (t : Text) (q : Request) (w : ResponseTemplate N)
    (v : Template N) : ApiError N :=
  ⟨put redacted (messageHoled t w.status v),w.status,put redacted (codeHoled w.status v),
    (v.details.shows 0).fill f t,q.method,q.safePath,shownId w,responseWasReplayed w.headers⟩

theorem refusedAs {t : Token} (q : Request) {w : ResponseTemplate N} {r : Response}
    (refused : isOk w.status = false) (carries : Carries f t.val w r) (clear : Clear t.val w)
    (spared : Spared f t.val w) : received f t q r = .error (match w.body with
      | some v => refusal f t.val q w v
      | none => unreadable q w) := by
  have body := carries.body
  simp only [received,idShown carries clear spared,replayedShown carries,carries.status,
    Response.ok,refused]
  cases text : r.text with
  | none =>
    rw [text,Option.map_none] at body
    rw [Option.map_eq_none_iff.mp body.symm]
    rfl
  | some text_ =>
    rw [text,Option.map_some] at body
    obtain ⟨v,holds,value⟩ := Option.map_eq_some_iff.mp body.symm
    have clearBody := clear.body v holds
    have sparedBody := spared.body v holds
    simp only [holds,← value,described w.status sparedBody.whole sparedBody.names sparedBody.nested,
      messageShown clearBody sparedBody,codeShown clearBody sparedBody,refusal,
      sanitizeShows v.details clearBody.details sparedBody.details,Bool.false_eq_true,if_false]

theorem messageSame {t u : Token} (same : t.val.length = u.val.length) (status : Nat)
    (v : Template N) : put redacted (messageHoled t.val status v) =
      put redacted (messageHoled u.val status v) ↔
        ∀ x, v.message = some x → t.val.take (severed t.val.length 1000 x) =
          u.val.take (severed t.val.length 1000 x) := by
  rw [messageHoled,messageHoled]
  cases v.message with
  | none => simp
  | some x => simpa using cutSame 1000 same x

end
end

theorem plainText {N : Type} {f : NumberFormat N} {text : Text}
    (there : text.isEmpty = false) (noJson : (parse f text).isNone = true) :
    (parseBody f text).value = .string text := by
  rw [parseBody,there,Option.isNone_iff_eq_none.mp noJson]
  rfl

section
def units : NumberFormat Unit := ⟨(),fun _ => [48],fun _ => .number ()⟩

def numerals : NumberFormat Text := ⟨[48],id,.number⟩

def refusedAt (v : Template Text) : ResponseTemplate Text := ⟨401,fun _ => none,none,none,some v⟩

def refusedWith (text : Text) : Response := ⟨401,fun _ => none,some text⟩

theorem refusedCarries {t text : Text} {v : Template Text}
    (reads : (parseBody numerals text).value = v.fill numerals t) :
    Carries numerals t (refusedAt v) (refusedWith text) :=
  ⟨rfl,rfl,rfl,fun _ _ => rfl,congrArg some reads⟩

theorem refusedClear {t : Text} {v : Template Text} (clear : BodyClear t 401 v) :
    Clear t (refusedAt v) :=
  ⟨(fun _ named => by cases named),fun _ body => Option.some.inj body ▸ clear⟩

theorem refusedSpared {t : Text} {v : Template Text} (spared : BodySpared numerals t 401 v) :
    Spared numerals t (refusedAt v) :=
  ⟨(fun _ named => by cases named),fun _ body => Option.some.inj body ▸ spared⟩

theorem textClear {t : Text} {x : Holed} (code : ¬begins t (codeHoled 401 (.string x : Template Text)))
    (message : ¬begins t ((Template.string x : Template Text).message.getD
      (literal (httpMessage 401)))) (whole : ¬begins t x) : Clear t (refusedAt (.string x)) :=
  refusedClear ⟨code,message,whole⟩

def alpha : Token := ⟨ascii "alpha-token",by decide⟩
def bravo : Token := ⟨ascii "bravo-token",by decide⟩

def denied : Holed := literal (ascii "No access with ") ++ [none]

theorem deniedCarries (t : Token) (noJson : (parse numerals (put t.val denied)).isNone = true) :
    Carries numerals t.val (refusedAt (.string denied)) (refusedWith (put t.val denied)) :=
  refusedCarries (plainText (putEmpty t denied) noJson)

theorem deniedSpared {t : Text}
    (code : Unspelled t (codeHoled 401 (.string denied : Template Text)))
    (message : Unspelled t (messageHoled t 401 (.string denied : Template Text)))
    (whole : Unspelled t denied) : Spared numerals t (refusedAt (.string denied)) :=
  refusedSpared ⟨trivial,by rintro m ⟨⟩,by rintro m ⟨⟩,code,message,whole⟩

def Independent (v : Template Text) (t u : Token) : Prop :=
  t.val.length = u.val.length → ∀ (q : Request) (r s : Response),
    Carries numerals t.val (refusedAt v) r → Carries numerals u.val (refusedAt v) s →
    Clear t.val (refusedAt v) → Clear u.val (refusedAt v) →
    received numerals t q r = received numerals u q s

def messageOf (r : Except (ApiError Text) (ApiResponse Text)) : Text :=
  match r with
  | .error e => e.message
  | .ok _ => []

def numberOf (r : Except (ApiError Text) (ApiResponse Text)) : Text :=
  match r with
  | .error ⟨_,_,_,.number n,_,_,_,_⟩ => n
  | _ => []

def overlong : Holed := List.replicate 999 (some 120) ++ [none]

def counted : Template Text := .object [(literal (ascii "details"),.bare [none])]
def countedText (t : Token) : Text := ascii "\x7b\"details\":" ++ t.val ++ ascii "\x7d"

def isCounted (numeral : Text) : Value Text → Bool
  | .object [(name,.number n)] => decide (name = ascii "details" ∧ n = numeral)
  | _ => false

theorem countedIs {numeral : Text} {v : Value Text} (counts : isCounted numeral v = true) :
    v = .object [(ascii "details",.number numeral)] := by
  unfold isCounted at counts
  split at counts
  · obtain ⟨rfl,rfl⟩ := of_decide_eq_true counts
    rfl
  · exact absurd counts Bool.false_ne_true

theorem numeralRead {s : Text} (plain : s ≠ ascii "null" ∧ s ≠ ascii "true" ∧ s ≠ ascii "false") :
    (bareValue numerals s).val = .number s := by
  rw [bareValue,if_neg plain.1,if_neg plain.2.1,if_neg plain.2.2]
  rfl

theorem countedCarries {t : Token} (plain : put t.val [none] ≠ ascii "null" ∧
      put t.val [none] ≠ ascii "true" ∧ put t.val [none] ≠ ascii "false")
    (reads : isCounted (put t.val [none]) (parseBody numerals (countedText t)).value = true) :
    Carries numerals t.val (refusedAt counted) (refusedWith (countedText t)) := by
  refine refusedCarries ?_
  rw [countedIs reads,← numeralRead plain]
  rfl

def ones : Token := ⟨ascii "11111",by decide⟩
def twos : Token := ⟨ascii "22222",by decide⟩

def spelt : Holed := literal (ascii "a%2Bb")
def aPlusB : Token := ⟨ascii "a+b",by decide⟩
def cPlusD : Token := ⟨ascii "c+d",by decide⟩

theorem countedClear {t : Text} (code : ¬begins t (codeHoled 401 counted))
    (message : ¬begins t (counted.message.getD (literal (httpMessage 401)))) :
    Clear t (refusedAt counted) := refusedClear ⟨code,message,trivial⟩

end

end ControlCenter.ApiErrors
