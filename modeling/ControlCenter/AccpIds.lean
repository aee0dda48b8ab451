import ControlCenter.AccpEnvelope

/-! Version 7 identifiers, instants as text, the clock rules of section 2.2 and the
per-sender duplicate index. An instant is a time value in milliseconds. -/
namespace ControlCenter.AccpIds
open JsonValue ZodSchema AccpEnvelope

def hexDigit (n : Nat) : Char := Nat.digitChar (n % 16)
def hexByte (n : Nat) : List Char := [hexDigit (n / 16),hexDigit n]

def uuidBytes (ms : Nat) (tail : Fin 16 → Fin 256) : List Nat :=
  [ms / 0x10000000000 % 256,ms / 0x100000000 % 256,ms / 0x1000000 % 256,ms / 0x10000 % 256,
   ms / 0x100 % 256,ms % 256,0x70 + tail 6 % 16,tail 7,0x80 + tail 8 % 64,tail 9,tail 10,tail 11,tail 12,
   tail 13,tail 14,tail 15]

def uuidText (bytes : List Nat) : String :=
  let hex := bytes.flatMap hexByte
  String.ofList (hex.take 8 ++ ['-'] ++ (hex.drop 8).take 4 ++ ['-'] ++ (hex.drop 12).take 4 ++
    ['-'] ++ (hex.drop 16).take 4 ++ ['-'] ++ hex.drop 20)

def uuidV7 (nowMs : Int) (tail : Fin 16 → Fin 256) : Except String String :=
  if 0 ≤ nowMs ∧ nowMs ≤ 0xffffffffffff then .ok (uuidText (uuidBytes nowMs.toNat tail))
  else .error "UUIDv7 timestamp must fit in 48 bits"

theorem anyHexDigit (n : Nat) : anyHex (hexDigit n) = true := by
  have each : ∀ k : Fin 16, anyHex (Nat.digitChar k) = true := by decide
  exact each ⟨n % 16,Nat.mod_lt n (by decide)⟩

theorem versionDigit (b : Nat) (small : b < 16) : hexDigit ((0x70 + b) / 16) = '7' := by
  have quotient : (0x70 + b) / 16 = 7 := by omega
  rw [quotient]
  decide

theorem variantDigit (b : Nat) (small : b < 64) :
    ['8','9','a','b','A','B'].contains (hexDigit ((0x80 + b) / 16)) = true := by
  have quotient : (0x80 + b) / 16 = 8 + b / 16 := by omega
  have each : ∀ k : Fin 4, ['8','9','a','b','A','B'].contains (hexDigit (8 + k)) = true := by
    decide
  rw [quotient]
  exact each ⟨b / 16,by omega⟩

theorem uuidFits (ms : Nat) (tail : Fin 16 → Fin 256) :
    fits uuidPattern (uuidText (uuidBytes ms tail)).toList = true := by
  have version := versionDigit (tail 6 % 16) (Nat.mod_lt _ (by decide))
  have variant := variantDigit (tail 8 % 64) (Nat.mod_lt _ (by decide))
  simp only [List.contains_eq_mem] at variant
  simp [uuidText,uuidBytes,uuidPattern,hexText,hexByte,exactly,fits,anyHexDigit,version]
  simpa using variant

theorem uuidMatches {nowMs : Int} {tail : Fin 16 → Fin 256} {id : String}
    (h : uuidV7 nowMs tail = .ok id) : uuidSchema (.string id) = some (.string id) := by
  unfold uuidV7 at h
  split at h <;> try contradiction
  cases Except.ok.inj h
  simp [uuidSchema,stringMatching,stringThat,uuidFits]

def daysFromCivil (year month day : Int) : Int :=
  let y := if month ≤ 2 then year - 1 else year
  let era := y / 400
  let yearOfEra := y - era * 400
  let dayOfYear := (153 * (if month ≤ 2 then month + 9 else month - 3) + 2) / 5 + day - 1
  era * 146097 + (yearOfEra * 365 + yearOfEra / 4 - yearOfEra / 100 + dayOfYear) - 719468

def civilFromDays (days : Int) : Int × Int × Int :=
  let z := days + 719468
  let era := z / 146097
  let dayOfEra := z - era * 146097
  let yearOfEra := (dayOfEra - dayOfEra / 1460 + dayOfEra / 36524 - dayOfEra / 146096) / 365
  let dayOfYear := dayOfEra - (365 * yearOfEra + yearOfEra / 4 - yearOfEra / 100)
  let shifted := (5 * dayOfYear + 2) / 153
  let month := if shifted < 10 then shifted + 3 else shifted - 9
  (yearOfEra + era * 400 + (if month ≤ 2 then 1 else 0),month,
    dayOfYear - (153 * shifted + 2) / 5 + 1)

def padded (width n : Nat) : List Char :=
  let text := Nat.toDigits 10 n
  List.replicate (width - text.length) '0' ++ text

def yearText (year : Int) : List Char :=
  if 0 ≤ year ∧ year ≤ 9999 then padded 4 year.toNat
  else (if year < 0 then '-' else '+') :: padded 6 year.natAbs

def toISOString (ms : Int) : String :=
  let (year,month,day) := civilFromDays (ms / 86400000)
  let rest := (ms % 86400000).toNat
  String.ofList (yearText year ++ ['-'] ++ padded 2 month.toNat ++ ['-'] ++ padded 2 day.toNat ++
    ['T'] ++ padded 2 (rest / 3600000) ++ [':'] ++ padded 2 (rest / 60000 % 60) ++ [':'] ++
    padded 2 (rest / 1000 % 60) ++ ['.'] ++ padded 3 (rest % 1000) ++ ['Z'])

example : toISOString 1767225599999 = "2025-12-31T23:59:59.999Z" := by decide

def digitsValue (cs : List Char) : Nat := cs.foldl (fun n c => 10 * n + (c.toNat - 48)) 0
def digitsAt (cs : List Char) (start count : Nat) : Nat := digitsValue ((cs.drop start).take count)

-- Date.parse on texts of the DateTimeSchema shape; none is NaN. Only the first three
-- fraction digits count, and hour 24 is midnight.
def dateParse (s : String) : Option Int :=
  let cs := s.toList
  let month := digitsAt cs 5 2
  let day := digitsAt cs 8 2
  let hour := digitsAt cs 11 2
  let minute := digitsAt cs 14 2
  let second := digitsAt cs 17 2
  let fraction := ((cs.drop 20).takeWhile digit).take 3
  let ms := digitsValue (fraction ++ List.replicate (3 - fraction.length) '0')
  if 1 ≤ month ∧ month ≤ 12 ∧ 1 ≤ day ∧ day ≤ 31 ∧ minute ≤ 59 ∧ second ≤ 59 ∧
      (hour ≤ 23 ∨ (hour = 24 ∧ minute = 0 ∧ second = 0 ∧ ms = 0)) then
    some (daysFromCivil (digitsAt cs 0 4) month day * 86400000 +
      (hour * 3600000 + minute * 60000 + second * 1000 + ms : Nat))
  else none

def clockSkewToleranceMs : Int := 120000

def isWithinClockSkew (sentAt : String) (receiverNowMs : Int) : Bool :=
  match dateParse sentAt with
  | some sent => decide ((receiverNowMs - sent).natAbs ≤ clockSkewToleranceMs)
  | none => false

def isExpired (expiresAt : Option String) (receiverNowMs : Int) : Bool :=
  match expiresAt.bind dateParse with
  | some expiry => decide (expiry < receiverNowMs - clockSkewToleranceMs)
  | none => false

structure MessageDedupIndex where
  seen : List String
  capacity : Nat
  deriving DecidableEq, Repr

def MessageDedupIndex.empty : MessageDedupIndex := ⟨[],10000⟩

def MessageDedupIndex.check (index : MessageDedupIndex) (messageId : String) :
    Bool × MessageDedupIndex :=
  if index.seen.contains messageId then (true,index)
  else
    let seen := index.seen ++ [messageId]
    (false,{index with seen := if index.capacity < seen.length then seen.tail else seen})

end ControlCenter.AccpIds
