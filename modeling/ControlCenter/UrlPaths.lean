import Mathlib.Data.List.Basic
import ControlCenter.Utf8

/-! Paths and queries of URLs of a special scheme: the segments of a path and its dot
segments, and the pairs of a form in a query. What is put together from plain segments, and
any pairs, are read back. -/
namespace ControlCenter.UrlPaths
open JsonText (CodeUnit Text ascii isDigit hexValue)
open Utf8

def splitOn (separates : CodeUnit → Bool) : Text → List Text
  | [] => [[]]
  | c::rest =>
      if separates c then []::splitOn separates rest
      else match splitOn separates rest with
        | [] => [[c]]
        | part::parts => (c::part)::parts

def slash (c : CodeUnit) : Bool := c = 47
def anySlash (c : CodeUnit) : Bool := c = 47 || c = 92

def upperHex (n : Nat) : CodeUnit := Fin.ofNat 65536 (if n < 10 then 48 + n else 55 + n)

def percentByte (b : Nat) : Text := [37,upperHex (b / 16),upperHex (b % 16)]

def pathSet (p : Nat) : Bool :=
  p ≤ 0x20 || 0x7e < p || [0x22,0x23,0x3c,0x3e,0x3f,0x5e,0x60,0x7b,0x7d].contains p

def querySet (p : Nat) : Bool := p ≤ 0x20 || 0x7e < p || [0x22,0x23,0x27,0x3c,0x3e].contains p

def encodePoint (inSet : Nat → Bool) (p : Nat) : Text :=
  if inSet p then (pointBytes p).flatMap percentByte else pointUnits p

def percentEncode (inSet : Nat → Bool) (s : Text) : Text := (points s).flatMap (encodePoint inSet)

def lowerUnit (c : CodeUnit) : CodeUnit :=
  if 65 ≤ c.val ∧ c.val ≤ 90 then Fin.ofNat 65536 (c.val + 32) else c

def singleDot (s : Text) : Bool := [ascii ".",ascii "%2e"].contains (s.map lowerUnit)

def doubleDot (s : Text) : Bool :=
  [ascii "..",ascii ".%2e",ascii "%2e.",ascii "%2e%2e"].contains (s.map lowerUnit)

def place (final : Bool) (path : List Text) (segment : Text) : List Text :=
  if doubleDot segment then if final then path.dropLast ++ [[]] else path.dropLast
  else if singleDot segment then if final then path ++ [[]] else path
  else path ++ [segment]

def resolve : List Text → List Text → List Text
  | path,[] => path
  | path,[segment] => place true path segment
  | path,segment::rest => resolve (place false path segment) rest

def readPath (base : List Text) (s : Text) : List Text :=
  resolve base (splitOn anySlash (percentEncode pathSet s))

def pathname (path : List Text) : Text := path.flatMap (47 :: ·)

def join (separator : CodeUnit) : List Text → Text
  | [] => []
  | [part] => part
  | part::rest => part ++ separator::join separator rest

def segmentUnit (c : CodeUnit) : Bool := !pathSet c.val && !anySlash c

structure Segment (s : Text) : Prop where
  units : s.all segmentUnit = true
  single : singleDot s = false
  double : doubleDot s = false

section
variable {separates : CodeUnit → Bool}

theorem splitPart {s : Text} (absent : ∀ c ∈ s, separates c = false) :
    splitOn separates s = [s] := by
  induction s with
  | nil => rfl
  | cons c rest ih =>
    have own : separates c = false := absent c List.mem_cons_self
    rw [splitOn,if_neg (by simp [own]),ih fun d inside => absent d (List.mem_cons_of_mem _ inside)]

theorem splitCons {s : Text} (absent : ∀ c ∈ s, separates c = false) {c : CodeUnit}
    (ends : separates c = true) (rest : Text) :
    splitOn separates (s ++ c::rest) = s::splitOn separates rest := by
  induction s with
  | nil => rw [List.nil_append,splitOn,if_pos ends]
  | cons d s ih =>
    have own : separates d = false := absent d List.mem_cons_self
    rw [List.cons_append,splitOn,if_neg (by simp [own]),
      ih fun e inside => absent e (List.mem_cons_of_mem _ inside)]

theorem splitJoin {c : CodeUnit} (ends : separates c = true) (part : Text) (parts : List Text)
    (absent : ∀ s ∈ part::parts, ∀ d ∈ s, separates d = false) :
    splitOn separates (join c (part::parts)) = part::parts := by
  induction parts generalizing part with
  | nil => exact splitPart (absent part List.mem_cons_self)
  | cons next rest ih =>
    rw [join,splitCons (absent part List.mem_cons_self) ends,
      ih next fun s inside => absent s (List.mem_cons_of_mem _ inside)]
    exact nofun

end

theorem resolvePlain (path segments : List Text)
    (plain : ∀ s ∈ segments, singleDot s = false ∧ doubleDot s = false) :
    resolve path segments = path ++ segments := by
  induction segments generalizing path with
  | nil => rw [resolve,List.append_nil]
  | cons s rest ih =>
    have placed (final : Bool) : place final path s = path ++ [s] := by
      obtain ⟨single,double⟩ := plain s List.mem_cons_self
      rw [place,if_neg (by simp [double]),if_neg (by simp [single])]
    cases rest with
    | nil => rw [resolve,placed]
    | cons next rest =>
      rw [resolve,placed,ih _ fun t inside => plain t (List.mem_cons_of_mem _ inside),
        List.append_assoc,List.singleton_append]
      exact nofun

theorem pointsAscii {s : Text} (small : ∀ c ∈ s, c.val < 0x80) :
    points s = s.map Fin.val := by
  induction s with
  | nil => rfl
  | cons a rest ih =>
    have own := small a List.mem_cons_self
    have later := ih fun c inside => small c (List.mem_cons_of_mem _ inside)
    have point : unitPoint a = a.val := by
      rw [unitPoint,if_neg (by simp only [surrogate,Bool.and_eq_true,decide_eq_true_eq]; omega)]
    cases rest with
    | nil => simp [points,point]
    | cons b rest =>
      rw [points,if_neg (by
        simp only [JsonText.high,JsonText.low,Bool.and_eq_true,decide_eq_true_eq]; omega),
        point,later]
      rfl

theorem decodedUnits (s : Text) : decode (encode s) = (points s).flatMap pointUnits := by
  rw [decode,encode,decodePoints (pointsScalar s)]

theorem unitsAscii {s t : Text} (units : (points s).flatMap pointUnits = t)
    (small : ∀ c ∈ t, c.val < 0x80) : s = t := by
  have single {a : CodeUnit} (small : ∀ c ∈ pointUnits (unitPoint a), c.val < 0x80) :
      pointUnits (unitPoint a) = [a] := by
    cases whole : surrogate a.val with
    | false => exact unitUnits whole
    | true =>
      have lost : unitPoint a = replacement := if_pos whole
      rw [lost] at small
      exact absurd (small 0xfffd (by decide)) (by decide)
  subst units
  fun_induction points s with
  | case1 => rfl
  | case2 a =>
    rw [List.flatMap_cons,List.flatMap_nil,List.append_nil] at small ⊢
    exact (single small).symm
  | case3 a b rest pair ih =>
    rw [List.flatMap_cons,pairUnits pair] at small
    have own := small a List.mem_cons_self
    simp only [JsonText.high,Bool.and_eq_true,decide_eq_true_eq] at pair
    omega
  | case4 a b rest pair ih =>
    rw [List.flatMap_cons] at small ⊢
    rw [← ih fun c inside => small c (List.mem_append_right _ inside),
      single fun c inside => small c (List.mem_append_left _ inside)]
    rfl

theorem decodedAscii {s t : Text} (small : ∀ c ∈ t, c.val < 0x80) :
    decode (encode s) = t ↔ s = t := by
  rw [decodedUnits]
  refine ⟨fun units => unitsAscii units small,?_⟩
  rintro rfl
  rw [pointsAscii small,List.flatMap_map]
  have own : ∀ c : CodeUnit, pointUnits c.val = [c] := fun c => by
    rw [pointUnits,if_pos c.isLt]
    simp
  simp only [own]
  exact List.flatMap_singleton' s

theorem percentEncodePlain {inSet : Nat → Bool} {s : Text}
    (small : ∀ c ∈ s, c.val < 0x80) (outside : ∀ c ∈ s, inSet c.val = false) :
    percentEncode inSet s = s := by
  rw [percentEncode,pointsAscii small]
  clear small
  induction s with
  | nil => rfl
  | cons c rest ih =>
    rw [List.map_cons,List.flatMap_cons,ih fun d inside => outside d (List.mem_cons_of_mem _ inside),
      encodePoint,if_neg (by simp [outside c List.mem_cons_self]),pointUnits,if_pos c.isLt]
    simp

theorem segmentSmall {c : CodeUnit} (unit : segmentUnit c = true) :
    c.val < 0x80 ∧ pathSet c.val = false ∧ anySlash c = false ∧ slash c = false := by
  simp only [segmentUnit,Bool.and_eq_true,Bool.not_eq_true'] at unit
  obtain ⟨outside,whole⟩ := unit
  refine ⟨?_,outside,whole,?_⟩
  · simp only [pathSet,Bool.or_eq_false_iff,decide_eq_false_iff_not] at outside
    omega
  · simp only [anySlash,Bool.or_eq_false_iff] at whole
    exact whole.1

theorem readJoined (part : Text) (parts : List Text) (base : List Text)
    (plain : ∀ s ∈ part::parts, s.all segmentUnit = true) :
    readPath base (join 47 (part::parts)) = resolve base (part::parts) := by
  have units : ∀ c ∈ join 47 (part::parts), c.val < 0x80 ∧ pathSet c.val = false := by
    clear base
    induction parts generalizing part with
    | nil =>
      intro c inside
      have unit := segmentSmall (List.all_eq_true.mp (plain part List.mem_cons_self) c inside)
      exact ⟨unit.1,unit.2.1⟩
    | cons next rest ih =>
      intro c inside
      rw [join] at inside
      · rcases List.mem_append.mp inside with inside | inside
        · have unit := segmentSmall (List.all_eq_true.mp (plain part List.mem_cons_self) c inside)
          exact ⟨unit.1,unit.2.1⟩
        · rcases List.mem_cons.mp inside with rfl | inside
          · exact ⟨by decide,by decide⟩
          · exact ih next (fun s there => plain s (List.mem_cons_of_mem _ there)) c inside
      · exact nofun
  rw [readPath,percentEncodePlain (fun c inside => (units c inside).1) fun c inside =>
    (units c inside).2,splitJoin (by rfl) part parts fun s there c inside =>
      (segmentSmall (List.all_eq_true.mp (plain s there) c inside)).2.2.1]

theorem splitPathname (path : List Text) (plain : ∀ s ∈ path, s.all segmentUnit = true) :
    splitOn slash (pathname path) = []::path := by
  induction path with
  | nil => rfl
  | cons s rest ih =>
    have later := ih fun t inside => plain t (List.mem_cons_of_mem _ inside)
    rw [pathname,List.flatMap_cons,List.cons_append,splitOn,if_pos (by rfl)]
    congr 1
    have absent : ∀ c ∈ s, slash c = false := fun c inside =>
      (segmentSmall (List.all_eq_true.mp (plain s List.mem_cons_self) c inside)).2.2.2
    cases rest with
    | nil =>
      rw [List.flatMap_nil,List.append_nil]
      exact splitPart absent
    | cons next rest =>
      rw [List.flatMap_cons,List.cons_append,splitCons absent (by rfl)]
      rw [pathname,List.flatMap_cons,List.cons_append,splitOn,if_pos (by rfl)] at later
      rw [(List.cons.inj later).2]

-- application/x-www-form-urlencoded: a form is pairs of texts, and a query is their text.
def formUnit (b : Nat) : Bool :=
  (48 ≤ b && b ≤ 57) || (65 ≤ b && b ≤ 90) || (97 ≤ b && b ≤ 122) || [42,45,46,95].contains b

def formByte (b : Nat) : Text :=
  if b = 32 then [43] else if formUnit b then [Fin.ofNat 65536 b] else percentByte b

def formText (s : Text) : Text := (encode s).flatMap formByte

def formPair (pair : Text × Text) : Text := formText pair.1 ++ 61::formText pair.2

def serializeForm (pairs : List (Text × Text)) : Text := join 38 (pairs.map formPair)

def percentDecode : Text → List Nat
  | [] => []
  | c::rest =>
      if c = 37 then match rest with
        | h::l::others => match hexValue h,hexValue l with
          | some x,some y => (x * 16 + y)::percentDecode others
          | _,_ => 37::percentDecode (h::l::others)
        | others => 37::percentDecode others
      else c.val::percentDecode rest

def plusSpace (c : CodeUnit) : CodeUnit := if c = 43 then 32 else c

def readField (s : Text) : Text := decode (percentDecode (s.map plusSpace))

def equals (c : CodeUnit) : Bool := c = 61
def ampersand (c : CodeUnit) : Bool := c = 38

def readPair (s : Text) : Text × Text :=
  (readField (s.takeWhile fun c => !equals c),
    readField ((s.dropWhile fun c => !equals c).drop 1))

def parseForm (query : Text) : List (Text × Text) :=
  ((splitOn ampersand query).filter fun part => !part.isEmpty).map readPair

def searchParam (key : Text) (pairs : List (Text × Text)) : Option Text :=
  (pairs.find? fun pair => pair.1 = key).map Prod.snd

theorem upperHexRead : ∀ n : Fin 16, hexValue (upperHex n.val) = some n.val := by decide

theorem percentTriplet {b : Nat} (bound : b < 256) : Triplet b (percentByte b) :=
  ⟨_,_,b / 16,b % 16,rfl,upperHexRead ⟨b / 16,by omega⟩,upperHexRead ⟨b % 16,by omega⟩,by omega⟩

theorem upperHexUnits : ∀ n : Fin 16, upperHex n.val ≠ 37 ∧ upperHex n.val ≠ 43 ∧
    equals (upperHex n.val) = false ∧ ampersand (upperHex n.val) = false ∧
    (upperHex n.val).val < 0x80 ∧ querySet (upperHex n.val).val = false := by decide

theorem formUnits : ∀ b : Fin 256, formUnit b.val = true →
    Fin.ofNat 65536 b.val ≠ 37 ∧ Fin.ofNat 65536 b.val ≠ 43 ∧
    equals (Fin.ofNat 65536 b.val) = false ∧ ampersand (Fin.ofNat 65536 b.val) = false ∧
    (Fin.ofNat 65536 b.val).val < 0x80 ∧ querySet (Fin.ofNat 65536 b.val).val = false := by
  decide +kernel

theorem formByteUnits {b : Nat} (bound : b < 256) : ∀ c ∈ formByte b, equals c = false ∧
    ampersand c = false ∧ c.val < 0x80 ∧ querySet c.val = false := by
  intro c inside
  unfold formByte at inside
  split at inside
  · cases List.mem_singleton.mp inside
    exact ⟨rfl,rfl,by decide,rfl⟩
  split at inside
  next plain =>
    cases List.mem_singleton.mp inside
    exact (formUnits ⟨b,bound⟩ plain).2.2
  · simp only [percentByte,List.mem_cons,List.not_mem_nil,or_false] at inside
    rcases inside with same | same | same
    · exact same ▸ ⟨rfl,rfl,by decide,rfl⟩
    · exact same ▸ (upperHexUnits ⟨b / 16,by omega⟩).2.2
    · exact same ▸ (upperHexUnits ⟨b % 16,by omega⟩).2.2

theorem decodeTriplet {b : Nat} {t : Text} (triplet : Triplet b t) (rest : Text) :
    percentDecode (t ++ rest) = b::percentDecode rest := by
  obtain ⟨h,l,x,y,rfl,first,second,rfl⟩ := triplet
  simp only [List.cons_append,List.nil_append,percentDecode,if_true,first,second]

theorem decodeFormByte {b : Nat} (bound : b < 256) (rest : Text) :
    percentDecode ((formByte b).map plusSpace ++ rest) = b::percentDecode rest := by
  unfold formByte
  split
  next space =>
    subst space
    simp only [List.map_cons,List.map_nil,List.cons_append,List.nil_append]
    rw [percentDecode.eq_def]
    rfl
  split
  next plain =>
    have units := formUnits ⟨b,bound⟩ plain
    have kept : plusSpace (Fin.ofNat 65536 b) = Fin.ofNat 65536 b := if_neg units.2.1
    rw [List.map_cons,List.map_nil,kept,List.cons_append,List.nil_append,percentDecode.eq_def]
    dsimp only
    have whole : (Fin.ofNat 65536 b).val = b := Nat.mod_eq_of_lt (Nat.lt_trans bound (by decide))
    rw [if_neg units.1,whole]
  · have kept : (percentByte b).map plusSpace = percentByte b := by
      have first := (upperHexUnits ⟨b / 16,by omega⟩).2.1
      have second := (upperHexUnits ⟨b % 16,by omega⟩).2.1
      simp only [percentByte,List.map_cons,List.map_nil,plusSpace,if_neg first,if_neg second]
      rfl
    rw [kept,decodeTriplet (percentTriplet bound)]

theorem decodeFormBytes {bytes : List Nat} (small : ∀ b ∈ bytes, b < 256) :
    percentDecode ((bytes.flatMap formByte).map plusSpace) = bytes := by
  induction bytes with
  | nil => rfl
  | cons b rest ih =>
    rw [List.flatMap_cons,List.map_append,decodeFormByte (small b List.mem_cons_self),
      ih fun c inside => small c (List.mem_cons_of_mem _ inside)]

theorem readFormText (s : Text) : readField (formText s) = decode (encode s) := by
  rw [readField,formText,decodeFormBytes (encodeSmall s)]

theorem formTextUnits (s : Text) : ∀ c ∈ formText s, equals c = false ∧
    ampersand c = false ∧ c.val < 0x80 ∧ querySet c.val = false := by
  intro c inside
  obtain ⟨b,there,mine⟩ := List.mem_flatMap.mp inside
  exact formByteUnits (encodeSmall s b there) c mine

theorem readFormPair (pair : Text × Text) :
    readPair (formPair pair) = (decode (encode pair.1),decode (encode pair.2)) := by
  have absent : ∀ c ∈ formText pair.1, (!equals c) = true := fun c inside => by
    simp [(formTextUnits pair.1 c inside).1]
  have stop : (!equals 61) = false := rfl
  rw [readPair,formPair,List.takeWhile_append_of_pos absent,List.dropWhile_append_of_pos absent,
    List.takeWhile_cons_of_neg (by simp [stop]),List.dropWhile_cons_of_neg (by simp [stop]),
    List.append_nil,List.drop_one,List.tail_cons,readFormText,readFormText]

theorem joinUnits {P : CodeUnit → Prop} {separator : CodeUnit} (own : P separator)
    {parts : List Text} (inside : ∀ s ∈ parts, ∀ c ∈ s, P c) : ∀ c ∈ join separator parts, P c := by
  fun_induction join separator parts with
  | case1 => exact fun c there => absurd there List.not_mem_nil
  | case2 part => exact inside part List.mem_cons_self
  | case3 part rest _ ih =>
    intro c there
    rcases List.mem_append.mp there with there | there
    · exact inside part List.mem_cons_self c there
    · rcases List.mem_cons.mp there with rfl | there
      · exact own
      · exact ih (fun s listed => inside s (List.mem_cons_of_mem _ listed)) c there

theorem serializedUnits (pairs : List (Text × Text)) :
    ∀ c ∈ serializeForm pairs, c.val < 0x80 ∧ querySet c.val = false := by
  refine joinUnits ⟨by decide,rfl⟩ fun s listed c there => ?_
  obtain ⟨pair,_,rfl⟩ := List.mem_map.mp listed
  rcases List.mem_append.mp there with there | there
  · exact (formTextUnits _ c there).2.2
  · rcases List.mem_cons.mp there with rfl | there
    · exact ⟨by decide,rfl⟩
    · exact (formTextUnits _ c there).2.2

theorem pathnameJoin (part : Text) (parts : List Text) :
    pathname (part::parts) = 47::join 47 (part::parts) := by
  induction parts generalizing part with
  | nil => simp [pathname,join]
  | cons next rest ih =>
    rw [join,pathname,List.flatMap_cons,List.cons_append]
    · rw [← ih next]
      rfl
    · exact nofun

theorem parseSerialized (pairs : List (Text × Text)) : parseForm (serializeForm pairs) =
    pairs.map fun pair => (decode (encode pair.1),decode (encode pair.2)) := by
  cases pairs with
  | nil => rfl
  | cons pair rest =>
    have absent : ∀ s ∈ formPair pair::rest.map formPair, ∀ c ∈ s, ampersand c = false := by
      rw [← List.map_cons]
      intro s there c inside
      obtain ⟨p,_,rfl⟩ := List.mem_map.mp there
      rcases List.mem_append.mp inside with own | own
      · exact (formTextUnits p.1 c own).2.1
      · rcases List.mem_cons.mp own with rfl | own
        · rfl
        · exact (formTextUnits p.2 c own).2.1
    have filled : ((pair::rest).map formPair).filter (fun part => !part.isEmpty) =
        (pair::rest).map formPair := by
      refine List.filter_eq_self.mpr fun s there => ?_
      obtain ⟨p,_,rfl⟩ := List.mem_map.mp there
      simp [formPair]
    rw [parseForm,serializeForm,List.map_cons,splitJoin (by rfl) _ _ absent,← List.map_cons,filled,
      List.map_map]
    exact List.map_congr_left fun p _ => readFormPair p

end ControlCenter.UrlPaths
