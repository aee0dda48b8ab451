import ControlCenter.JsonText
import Mathlib.Data.List.DropRight

/-! Splitting a verification command into its arguments, and the renderings that the
parser's own quoting rules allow for a list of arguments. -/
namespace ControlCenter.VerificationCommand
open JsonText

-- White space and line terminators: what trimming removes and `\s` matches.
def isSpace (c : CodeUnit) : Bool :=
  [9,10,11,12,13,32,160,5760,8192,8193,8194,8195,8196,8197,8198,8199,8200,8201,8202,8232,8233,8239,
    8287,12288,65279].contains c.val

def trim (s : Text) : Text := (s.dropWhile isSpace).rdropWhile isSpace

abbrev singleQuote : CodeUnit := 39
abbrev doubleQuote : CodeUnit := 34
abbrev backslash : CodeUnit := 92

inductive Quote where
  | single
  | double
  deriving DecidableEq

def Quote.name : Quote → String
  | .single => "single"
  | .double => "double"

structure Reading where
  argv : List Text
  token : Text
  tokenStarted : Bool
  quote : Option Quote
  deriving DecidableEq

def Reading.initial : Reading := ⟨[],[],false,none⟩

def Reading.finishToken (r : Reading) : Reading :=
  if r.tokenStarted then ⟨r.argv ++ [r.token],[],false,r.quote⟩ else r

def Reading.add (r : Reading) (c : CodeUnit) : Reading :=
  {r with token := r.token ++ [c], tokenStarted := true}

def Reading.quoted (r : Reading) (quote : Option Quote) : Reading :=
  {r with quote := quote, tokenStarted := true}

def Reading.result (r : Reading) : Except String (List Text) :=
  match r.quote with
  | some quote => .error ("Verification command has an unterminated " ++ quote.name ++ " quote")
  | none =>
      match r.finishToken.argv with
      | (c::name)::arguments => .ok ((c::name)::arguments)
      | _ => .error "Verification command must contain an executable"

def scan (r : Reading) : Text → Except String (List Text)
  | [] => r.result
  | c::rest =>
      match r.quote with
      | some .single =>
          if c = singleQuote then scan (r.quoted none) rest else scan (r.add c) rest
      | some .double =>
          if c = doubleQuote then scan (r.quoted none) rest
          else if c = backslash then
            match rest with
            | [] => .error "Verification command ends with an incomplete escape"
            | d::rest => scan (r.add d) rest
          else scan (r.add c) rest
      | none =>
          if isSpace c then scan r.finishToken rest
          else if c = singleQuote then scan (r.quoted (some .single)) rest
          else if c = doubleQuote then scan (r.quoted (some .double)) rest
          else if c = backslash then
            match rest with
            | [] => .error "Verification command ends with an incomplete escape"
            | d::rest => scan (r.add d) rest
          else scan (r.add c) rest

def parseVerificationCommand (commandLine : Text) : Except String (List Text) :=
  if trim commandLine = [] then .error "Verification command cannot be empty"
  else scan .initial (trim commandLine)

abbrev Blank := {c : CodeUnit // isSpace c = true}

def isBare (c : CodeUnit) : Bool :=
  !isSpace c && c ≠ singleQuote && c ≠ doubleQuote && c ≠ backslash

inductive DoubleUnit where
  | plain (c : CodeUnit) (ordinary : c ≠ doubleQuote ∧ c ≠ backslash)
  | escaped (c : CodeUnit)

def DoubleUnit.text : DoubleUnit → Text
  | .plain c _ => [c]
  | .escaped c => [backslash,c]

def DoubleUnit.unit : DoubleUnit → CodeUnit
  | .plain c _ => c
  | .escaped c => c

inductive Segment where
  | bare (c : CodeUnit) (ordinary : isBare c = true)
  | escaped (c : CodeUnit)
  | single (units : List {c : CodeUnit // c ≠ singleQuote})
  | double (units : List DoubleUnit)

def Segment.text : Segment → Text
  | .bare c _ => [c]
  | .escaped c => [backslash,c]
  | .single units => singleQuote::units.map Subtype.val ++ [singleQuote]
  | .double units => doubleQuote::units.flatMap DoubleUnit.text ++ [doubleQuote]

def Segment.value : Segment → Text
  | .bare c _ => [c]
  | .escaped c => [c]
  | .single units => units.map Subtype.val
  | .double units => units.map DoubleUnit.unit

structure Word where
  segments : List Segment
  written : segments ≠ []

def Word.text (w : Word) : Text := w.segments.flatMap Segment.text
def Word.value (w : Word) : Text := w.segments.flatMap Segment.value

structure Gap where
  first : Blank
  others : List Blank

def Gap.text (g : Gap) : Text := (g.first::g.others).map Subtype.val

structure Rendering where
  lead : List Blank
  first : Word
  others : List (Gap × Word)
  trail : List Blank

def spaced (words : List (Gap × Word)) : Text := words.flatMap fun w => w.1.text ++ w.2.text

def Rendering.text (r : Rendering) : Text :=
  r.lead.map Subtype.val ++ r.first.text ++ spaced r.others ++ r.trail.map Subtype.val

def Rendering.argv (r : Rendering) : List Text := r.first.value::r.others.map fun w => w.2.value

def Rendering.segments (r : Rendering) : List Segment :=
  r.first.segments ++ r.others.flatMap fun w => w.2.segments

theorem isBareIff {c : CodeUnit} : isBare c = true ↔
    isSpace c = false ∧ c ≠ singleQuote ∧ c ≠ doubleQuote ∧ c ≠ backslash := by
  simp [isBare,and_assoc]

theorem scanDoubleQuoted (argv : List Text) (token : Text) (started : Bool) (c : CodeUnit) (rest : Text) :
    scan ⟨argv,token,started,some .double⟩ (c::rest) =
      if c = doubleQuote then scan ⟨argv,token,true,none⟩ rest
      else if c = backslash then
        match rest with
        | [] => .error "Verification command ends with an incomplete escape"
        | d::rest => scan ⟨argv,token ++ [d],true,some .double⟩ rest
      else scan ⟨argv,token ++ [c],true,some .double⟩ rest := by
  rw [scan.eq_def]
  rfl

theorem scanUnquoted (argv : List Text) (token : Text) (started : Bool) (c : CodeUnit) (rest : Text) :
    scan ⟨argv,token,started,none⟩ (c::rest) =
      if isSpace c then scan (Reading.finishToken ⟨argv,token,started,none⟩) rest
      else if c = singleQuote then scan ⟨argv,token,true,some .single⟩ rest
      else if c = doubleQuote then scan ⟨argv,token,true,some .double⟩ rest
      else if c = backslash then
        match rest with
        | [] => .error "Verification command ends with an incomplete escape"
        | d::rest => scan ⟨argv,token ++ [d],true,none⟩ rest
      else scan ⟨argv,token ++ [c],true,none⟩ rest := by
  rw [scan.eq_def]
  rfl

theorem closeSingle (argv : List Text) (token : Text) (started : Bool) (rest : Text) :
    scan ⟨argv,token,started,some .single⟩ (singleQuote::rest) = scan ⟨argv,token,true,none⟩ rest :=
  if_pos rfl

theorem inSingle (argv : List Text) (token : Text) (started : Bool) {c : CodeUnit}
    (inside : c ≠ singleQuote) (rest : Text) :
    scan ⟨argv,token,started,some .single⟩ (c::rest) =
      scan ⟨argv,token ++ [c],true,some .single⟩ rest :=
  if_neg inside

theorem closeDouble (argv : List Text) (token : Text) (started : Bool) (rest : Text) :
    scan ⟨argv,token,started,some .double⟩ (doubleQuote::rest) = scan ⟨argv,token,true,none⟩ rest := by
  rw [scanDoubleQuoted,if_pos rfl]

theorem inDouble (argv : List Text) (token : Text) (started : Bool) (unit : DoubleUnit) (rest : Text) :
    scan ⟨argv,token,started,some .double⟩ (unit.text ++ rest) =
      scan ⟨argv,token ++ [unit.unit],true,some .double⟩ rest := by
  cases unit with
  | plain c ordinary =>
    show scan ⟨argv,token,started,some .double⟩ (c::rest) = _
    rw [scanDoubleQuoted,if_neg ordinary.1,if_neg ordinary.2]
    rfl
  | escaped c =>
    show scan ⟨argv,token,started,some .double⟩ (backslash::c::rest) = _
    rw [scanDoubleQuoted]
    rfl

theorem openSingle (argv : List Text) (token : Text) (started : Bool) (rest : Text) :
    scan ⟨argv,token,started,none⟩ (singleQuote::rest) = scan ⟨argv,token,true,some .single⟩ rest := by
  rw [scanUnquoted]
  rfl

theorem openDouble (argv : List Text) (token : Text) (started : Bool) (rest : Text) :
    scan ⟨argv,token,started,none⟩ (doubleQuote::rest) = scan ⟨argv,token,true,some .double⟩ rest := by
  rw [scanUnquoted]
  rfl

theorem scanSpace (argv : List Text) (token : Text) (started : Bool) {c : CodeUnit}
    (space : isSpace c = true) (rest : Text) :
    scan ⟨argv,token,started,none⟩ (c::rest) =
      scan (Reading.finishToken ⟨argv,token,started,none⟩) rest := by
  rw [scanUnquoted,if_pos space]

theorem scanBare (argv : List Text) (token : Text) (started : Bool) {c : CodeUnit}
    (ordinary : isBare c = true) (rest : Text) :
    scan ⟨argv,token,started,none⟩ (c::rest) = scan ⟨argv,token ++ [c],true,none⟩ rest := by
  obtain ⟨space,single,double,escape⟩ := isBareIff.mp ordinary
  rw [scanUnquoted,if_neg (by simp [space]),if_neg single,if_neg double,if_neg escape]

theorem scanEscape (argv : List Text) (token : Text) (started : Bool) (c : CodeUnit) (rest : Text) :
    scan ⟨argv,token,started,none⟩ (backslash::c::rest) = scan ⟨argv,token ++ [c],true,none⟩ rest := by
  rw [scanUnquoted]
  rfl

theorem scanEscapeEnd (argv : List Text) (token : Text) (started : Bool) :
    scan ⟨argv,token,started,none⟩ [backslash] =
      .error "Verification command ends with an incomplete escape" := by
  rw [scanUnquoted]
  rfl

theorem scanSingle (argv : List Text) (token : Text) (units : List {c : CodeUnit // c ≠ singleQuote})
    (rest : Text) :
    scan ⟨argv,token,true,some .single⟩ (units.map Subtype.val ++ singleQuote::rest) =
      scan ⟨argv,token ++ units.map Subtype.val,true,none⟩ rest := by
  induction units generalizing token with
  | nil => simp [closeSingle]
  | cons c units ih => simp [-List.map_subtype,inSingle _ _ _ c.property,ih]

theorem scanDouble (argv : List Text) (token : Text) (units : List DoubleUnit) (rest : Text) :
    scan ⟨argv,token,true,some .double⟩ (units.flatMap DoubleUnit.text ++ doubleQuote::rest) =
      scan ⟨argv,token ++ units.map DoubleUnit.unit,true,none⟩ rest := by
  induction units generalizing token with
  | nil => simp [closeDouble]
  | cons unit units ih => simp [inDouble,ih]

theorem scanSegment (argv : List Text) (token : Text) (started : Bool) (segment : Segment) (rest : Text) :
    scan ⟨argv,token,started,none⟩ (segment.text ++ rest) =
      scan ⟨argv,token ++ segment.value,true,none⟩ rest := by
  cases segment with
  | bare c ordinary => exact scanBare argv token started ordinary rest
  | escaped c => exact scanEscape argv token started c rest
  | single units =>
    simp only [Segment.text,Segment.value,List.cons_append,List.append_assoc,List.nil_append,openSingle]
    exact scanSingle argv token units rest
  | double units =>
    simp only [Segment.text,Segment.value,List.cons_append,List.append_assoc,List.nil_append,openDouble]
    exact scanDouble argv token units rest

theorem scanSegments (argv : List Text) (token : Text) (started : Bool) (segments : List Segment)
    (rest : Text) :
    scan ⟨argv,token,started,none⟩ (segments.flatMap Segment.text ++ rest) =
      scan ⟨argv,token ++ segments.flatMap Segment.value,started || !segments.isEmpty,none⟩ rest := by
  induction segments generalizing token started with
  | nil => simp
  | cons segment segments ih => simp [scanSegment,ih]

theorem scanWord (argv : List Text) (w : Word) (rest : Text) :
    scan ⟨argv,[],false,none⟩ (w.text ++ rest) = scan ⟨argv,w.value,true,none⟩ rest := by
  have written : w.segments.isEmpty = false := List.isEmpty_eq_false_iff.mpr w.written
  simp [Word.text,Word.value,scanSegments,written]

theorem scanBlanks (argv : List Text) (blanks : List Blank) (rest : Text) :
    scan ⟨argv,[],false,none⟩ (blanks.map Subtype.val ++ rest) = scan ⟨argv,[],false,none⟩ rest := by
  induction blanks with
  | nil => rfl
  | cons c blanks ih =>
    simpa [-List.map_subtype,scanSpace _ _ _ c.property,Reading.finishToken] using ih

theorem scanGap (argv : List Text) (token : Text) (g : Gap) (rest : Text) :
    scan ⟨argv,token,true,none⟩ (g.text ++ rest) = scan ⟨argv ++ [token],[],false,none⟩ rest := by
  simp only [Gap.text,List.map_cons,List.cons_append,scanSpace _ _ _ g.first.property]
  exact scanBlanks (argv ++ [token]) g.others rest

theorem scanSpaced (argv : List Text) (token : Text) (words : List (Gap × Word)) (rest : Text) :
    scan ⟨argv,token,true,none⟩ (spaced words ++ rest) =
      scan ⟨argv ++ ((token::words.map fun w => w.2.value).dropLast),
        (token::words.map fun w => w.2.value).getLast (List.cons_ne_nil _ _),true,none⟩ rest := by
  induction words generalizing argv token with
  | nil => simp [spaced]
  | cons w words ih =>
    simp only [spaced,List.flatMap_cons,List.append_assoc,scanGap,scanWord]
    simpa [spaced] using ih (argv ++ [token]) w.2.value

theorem scanRendering (r : Rendering) (leadless : r.lead = []) (trailless : r.trail = [])
    (named : r.first.value ≠ []) : scan .initial r.text = .ok r.argv := by
  have words := scanSpaced [] r.first.value r.others []
  rw [List.append_nil] at words
  simp only [Rendering.text,leadless,trailless,List.map_nil,List.nil_append,List.append_nil,
    Reading.initial,scanWord]
  rw [words]
  simp only [scan,Reading.result,Reading.finishToken,if_true,List.nil_append]
  rw [List.dropLast_append_getLast]
  obtain ⟨c,name,named⟩ := List.exists_cons_of_ne_nil named
  simp [Rendering.argv,named]

structure Rest where
  segments : List Segment
  others : List (Gap × Word)
  trail : List Blank

def Rest.text (t : Rest) : Text :=
  t.segments.flatMap Segment.text ++ spaced t.others ++ t.trail.map Subtype.val

def Rest.argv (t : Rest) (r : Reading) : List Text :=
  r.argv ++ (if r.tokenStarted || !t.segments.isEmpty
    then [r.token ++ t.segments.flatMap Segment.value] else []) ++ t.others.map fun w => w.2.value

def Rest.blank (c : Blank) : Rest → Rest
  | ⟨[],[],trail⟩ => ⟨[],[],c::trail⟩
  | ⟨[],(g,w)::others,trail⟩ => ⟨[],(⟨c,g.first::g.others⟩,w)::others,trail⟩
  | ⟨segment::segments,others,trail⟩ =>
      ⟨[],(⟨c,[]⟩,⟨segment::segments,List.cons_ne_nil _ _⟩)::others,trail⟩

theorem blankText (c : Blank) (t : Rest) : (t.blank c).text = c.val::t.text := by
  obtain ⟨_ | ⟨segment,segments⟩,_ | ⟨⟨g,w⟩,others⟩,trail⟩ := t <;>
    simp [Rest.blank,Rest.text,spaced,Gap.text,Word.text]

theorem blankArgv (c : Blank) (t : Rest) (r : Reading) (idle : r.tokenStarted = false → r.token = []) :
    (t.blank c).argv r = t.argv r.finishToken := by
  obtain ⟨argv,token,started,quote⟩ := r
  cases started with
  | true =>
    obtain ⟨_ | ⟨segment,segments⟩,_ | ⟨⟨g,w⟩,others⟩,trail⟩ := t <;>
      simp [Rest.blank,Rest.argv,Reading.finishToken,Word.value]
  | false =>
    obtain rfl : token = [] := idle rfl
    obtain ⟨_ | ⟨segment,segments⟩,_ | ⟨⟨g,w⟩,others⟩,trail⟩ := t <;>
      simp [Rest.blank,Rest.argv,Reading.finishToken,Word.value]

def Rest.segment (segment : Segment) (t : Rest) : Rest := {t with segments := segment::t.segments}

theorem segmentText (segment : Segment) (t : Rest) : (t.segment segment).text = segment.text ++ t.text := by
  simp [Rest.segment,Rest.text]

theorem segmentArgv (segment : Segment) (t : Rest) (argv : List Text) (token : Text) (started : Bool) :
    (t.segment segment).argv ⟨argv,token,started,none⟩ =
      t.argv ⟨argv,token ++ segment.value,true,none⟩ := by
  simp [Rest.segment,Rest.argv]

def Unread (r : Reading) (s : Text) (argv : List Text) : Prop :=
  match r.quote with
  | none => ∃ t : Rest, s = t.text ∧ argv = t.argv r
  | some .single => ∃ (units : List {c : CodeUnit // c ≠ singleQuote}) (t : Rest),
      s = units.map Subtype.val ++ singleQuote::t.text ∧
      argv = t.argv ⟨r.argv,r.token ++ units.map Subtype.val,true,none⟩
  | some .double => ∃ (units : List DoubleUnit) (t : Rest),
      s = units.flatMap DoubleUnit.text ++ doubleQuote::t.text ∧
      argv = t.argv ⟨r.argv,r.token ++ units.map DoubleUnit.unit,true,none⟩

theorem resultAccepted {r : Reading} {argv : List Text} (accepted : r.result = .ok argv) :
    r.quote = none ∧ argv = r.finishToken.argv ∧ argv.head? ≠ some [] := by
  obtain ⟨earlier,token,started,quote⟩ := r
  cases quote with
  | some quote => cases accepted
  | none =>
    simp only [Reading.result] at accepted
    split at accepted
    · next words =>
      cases accepted
      exact ⟨rfl,words.symm,by simp⟩
    · cases accepted

theorem finishedIdle {r : Reading} (idle : r.tokenStarted = false → r.token = []) :
    r.finishToken.tokenStarted = false → r.finishToken.token = [] := by
  unfold Reading.finishToken
  split
  · exact fun _ => rfl
  · exact idle

theorem scanUnread {r : Reading} {s : Text} {argv : List Text} (accepted : scan r s = .ok argv)
    (idle : r.tokenStarted = false → r.token = []) : Unread r s argv := by
  fun_induction scan r s with
  | case1 r =>
    obtain ⟨outside,words,-⟩ := resultAccepted accepted
    simp only [Unread,outside]
    refine ⟨⟨[],[],[]⟩,rfl,words.trans ?_⟩
    cases started : r.tokenStarted <;> simp [Rest.argv,Reading.finishToken,started]
  | case2 r rest quote ih =>
    obtain ⟨t,unread,words⟩ := ih accepted nofun
    simp only [Unread,quote]
    exact ⟨[],t,by simp [unread],by simpa [Reading.quoted] using words⟩
  | case3 r c rest quote inside ih =>
    have read := ih accepted nofun
    simp only [Unread,Reading.add,quote] at read ⊢
    obtain ⟨units,t,unread,words⟩ := read
    exact ⟨⟨c,inside⟩::units,t,by simp [-List.map_subtype,unread],by simpa using words⟩
  | case4 r rest quote ih =>
    obtain ⟨t,unread,words⟩ := ih accepted nofun
    simp only [Unread,quote]
    exact ⟨[],t,by simp [unread],by simpa [Reading.quoted] using words⟩
  | case5 => cases accepted
  | case6 r quote d rest apart ih =>
    have read := ih accepted nofun
    simp only [Unread,Reading.add,quote] at read ⊢
    obtain ⟨units,t,unread,words⟩ := read
    exact ⟨.escaped d::units,t,by simp [DoubleUnit.text,unread],by simpa [DoubleUnit.unit] using words⟩
  | case7 r c rest quote inside ordinary ih =>
    have read := ih accepted nofun
    simp only [Unread,Reading.add,quote] at read ⊢
    obtain ⟨units,t,unread,words⟩ := read
    exact ⟨.plain c ⟨inside,ordinary⟩::units,t,by simp [DoubleUnit.text,unread],
      by simpa [DoubleUnit.unit] using words⟩
  | case8 r c rest outside space ih =>
    obtain ⟨earlier,token,started,_⟩ := r
    obtain rfl := outside
    have read := ih accepted (finishedIdle idle)
    obtain ⟨t,unread,words⟩ : ∃ t : Rest, rest = t.text ∧
        argv = t.argv (Reading.finishToken ⟨earlier,token,started,none⟩) := by
      cases started <;> exact read
    exact ⟨t.blank ⟨c,space⟩,by simp [blankText,unread],words.trans (blankArgv _ t _ idle).symm⟩
  | case9 r rest outside space ih =>
    obtain ⟨earlier,token,started,_⟩ := r
    obtain rfl := outside
    obtain ⟨units,t,unread,words⟩ := ih accepted nofun
    exact ⟨t.segment (.single units),by simp [-List.map_subtype,segmentText,Segment.text,unread],
      words.trans (segmentArgv (.single units) t earlier token started).symm⟩
  | case10 r rest outside space apart ih =>
    obtain ⟨earlier,token,started,_⟩ := r
    obtain rfl := outside
    obtain ⟨units,t,unread,words⟩ := ih accepted nofun
    exact ⟨t.segment (.double units),by simp [segmentText,Segment.text,unread],
      words.trans (segmentArgv (.double units) t earlier token started).symm⟩
  | case11 => cases accepted
  | case12 r outside d rest space single double ih =>
    obtain ⟨earlier,token,started,_⟩ := r
    obtain rfl := outside
    obtain ⟨t,unread,words⟩ := ih accepted nofun
    exact ⟨t.segment (.escaped d),by simp [segmentText,Segment.text,unread],
      words.trans (segmentArgv (.escaped d) t earlier token started).symm⟩
  | case13 r c rest outside space single double escape ih =>
    obtain ⟨earlier,token,started,_⟩ := r
    obtain rfl := outside
    obtain ⟨t,unread,words⟩ := ih accepted nofun
    have ordinary : isBare c = true :=
      isBareIff.mpr ⟨Bool.not_eq_true _ ▸ space,single,double,escape⟩
    exact ⟨t.segment (.bare c ordinary),by simp [segmentText,Segment.text,unread],
      words.trans (segmentArgv (.bare c ordinary) t earlier token started).symm⟩

theorem scanNamed {r : Reading} {s : Text} {argv : List Text} (accepted : scan r s = .ok argv) :
    ∃ name arguments, argv = name::arguments ∧ name ≠ [] := by
  fun_induction scan r s with
  | case1 r =>
    simp only [Reading.result] at accepted
    split at accepted
    · cases accepted
    · split at accepted
      · cases accepted
        exact ⟨_,_,rfl,List.cons_ne_nil _ _⟩
      · cases accepted
  | case5 => cases accepted
  | case11 => cases accepted
  | case2 _ _ _ ih => exact ih accepted
  | case3 _ _ _ _ _ ih => exact ih accepted
  | case4 _ _ _ ih => exact ih accepted
  | case6 _ _ _ _ _ ih => exact ih accepted
  | case7 _ _ _ _ _ _ ih => exact ih accepted
  | case8 _ _ _ _ _ ih => exact ih accepted
  | case9 _ _ _ _ ih => exact ih accepted
  | case10 _ _ _ _ _ ih => exact ih accepted
  | case12 _ _ _ _ _ _ _ ih => exact ih accepted
  | case13 _ _ _ _ _ _ _ _ ih => exact ih accepted

theorem scanSource {s : Text} {argv : List Text} (accepted : scan .initial s = .ok argv) :
    ∃ r : Rendering, r.text = s ∧ r.argv = argv ∧ r.first.value ≠ [] := by
  obtain ⟨⟨segments,others,trail⟩,rfl,words⟩ := scanUnread accepted fun _ => rfl
  obtain ⟨name,arguments,rfl,named⟩ := scanNamed accepted
  cases segments with
  | cons segment segments =>
    refine ⟨⟨[],⟨segment::segments,List.cons_ne_nil _ _⟩,others,trail⟩,rfl,words.symm,?_⟩
    exact fun empty => named ((List.cons.inj words).1.trans empty)
  | nil =>
    cases others with
    | nil => cases words
    | cons w others =>
      refine ⟨⟨w.1.first::w.1.others,w.2,others,trail⟩,?_,words.symm,?_⟩
      · simp [Rendering.text,Rest.text,spaced,Gap.text]
      · exact fun empty => named ((List.cons.inj words).1.trans empty)

theorem blanksAll (blanks : List Blank) : ∀ c ∈ blanks.map Subtype.val, isSpace c = true := by
  intro c member
  obtain ⟨blank,-,rfl⟩ := List.mem_map.mp member
  exact blank.property

theorem allBlanks (s : Text) (space : ∀ c ∈ s, isSpace c = true) : ∃ blanks : List Blank,
    blanks.map Subtype.val = s :=
  ⟨s.attachWith _ space,List.attachWith_map_subtype_val _⟩

theorem trimParts (s : Text) : ∃ lead trail : List Blank,
    s = lead.map Subtype.val ++ trim s ++ trail.map Subtype.val := by
  obtain ⟨lead,led⟩ := allBlanks (s.takeWhile isSpace) fun _ member => List.mem_takeWhile_imp member
  obtain ⟨trail,trailed⟩ := allBlanks ((s.dropWhile isSpace).rtakeWhile isSpace)
    fun _ member => List.mem_rtakeWhile_imp member
  refine ⟨lead,trail,?_⟩
  rw [led,trailed,trim,List.append_assoc,List.rdropWhile_append_rtakeWhile,List.takeWhile_append_dropWhile]

theorem trailDropped (s : Text) (trail : List Blank) :
    (s ++ trail.map Subtype.val).rdropWhile isSpace = s.rdropWhile isSpace := by
  have space : ∀ c ∈ (trail.map Subtype.val).reverse, isSpace c = true :=
    fun c member => blanksAll trail c (List.mem_reverse.mp member)
  rw [List.rdropWhile,List.reverse_append,List.dropWhile_append_of_pos space,List.rdropWhile]

theorem trimmed (lead trail : List Blank) (core : Text)
    (opens : ∀ c, core.head? = some c → isSpace c = false)
    (closes : ∀ c, core.getLast? = some c → isSpace c = false) :
    trim (lead.map Subtype.val ++ core ++ trail.map Subtype.val) = core := by
  rw [trim,List.append_assoc,List.dropWhile_append_of_pos (blanksAll lead)]
  cases core with
  | nil =>
    have gone : (trail.map Subtype.val).dropWhile isSpace = [] :=
      List.dropWhile_eq_nil_iff.mpr (blanksAll trail)
    simp [-List.map_subtype,gone]
  | cons c core =>
    have ordinary : ¬ isSpace c = true := by simp [opens c rfl]
    rw [List.cons_append,List.dropWhile_cons_of_neg ordinary,← List.cons_append,trailDropped]
    refine List.rdropWhile_eq_self_iff.mpr fun written => ?_
    simp [closes _ (List.getLast?_eq_getLast_of_ne_nil written)]

theorem segmentOpens (segment : Segment) : ∃ c rest, segment.text = c::rest ∧ isSpace c = false := by
  cases segment with
  | bare c ordinary => exact ⟨c,[],rfl,(isBareIff.mp ordinary).1⟩
  | escaped c => exact ⟨backslash,[c],rfl,by decide⟩
  | single units => exact ⟨singleQuote,_,rfl,by decide⟩
  | double units => exact ⟨doubleQuote,_,rfl,by decide⟩

theorem segmentCloses (segment : Segment) : ∃ front c, segment.text = front ++ [c] ∧
    (isSpace c = true → segment = .escaped c) := by
  cases segment with
  | bare c ordinary => exact ⟨[],c,rfl,fun space => by simp [(isBareIff.mp ordinary).1] at space⟩
  | escaped c => exact ⟨[backslash],c,rfl,fun _ => rfl⟩
  | single units => exact ⟨_,singleQuote,rfl,fun space => absurd space (by decide)⟩
  | double units => exact ⟨_,doubleQuote,rfl,fun space => absurd space (by decide)⟩

def Rendering.core (r : Rendering) : Text := r.first.text ++ spaced r.others

theorem coreOpens (r : Rendering) : ∃ c rest, r.core = c::rest ∧ isSpace c = false := by
  obtain ⟨lead,⟨segments,written⟩,others,trail⟩ := r
  obtain ⟨segment,segments,rfl⟩ := List.exists_cons_of_ne_nil written
  obtain ⟨c,rest,text,ordinary⟩ := segmentOpens segment
  exact ⟨c,_,by simp [Rendering.core,Word.text,text]; rfl,ordinary⟩

theorem coreCloses (r : Rendering) : ∃ front segment, r.segments.getLast? = some segment ∧
    r.core = front ++ segment.text ∧ ∃ argv token started, ∀ rest,
      scan .initial (front ++ rest) = scan ⟨argv,token,started,none⟩ rest := by
  obtain ⟨lead,first,others,trail⟩ := r
  rcases List.eq_nil_or_concat others with rfl | ⟨others,⟨g,w⟩,rfl⟩
  · have split := List.dropLast_append_getLast first.written
    refine ⟨first.segments.dropLast.flatMap Segment.text,first.segments.getLast first.written,?_,?_,_,_,_,
      fun rest => scanSegments [] [] false first.segments.dropLast rest⟩
    · simp [Rendering.segments,List.getLast?_eq_getLast_of_ne_nil first.written]
    · rw [Rendering.core,Word.text]
      nth_rewrite 1 [← split]
      simp [spaced]
  · have split := List.dropLast_append_getLast w.written
    have entered (rest : Text) : scan .initial (first.text ++ (spaced others ++ (g.text ++ rest))) =
        scan ⟨first.value::others.map fun w => w.2.value,[],false,none⟩ rest := by
      rw [Reading.initial,scanWord,scanSpaced,scanGap,List.nil_append,List.dropLast_append_getLast]
    refine ⟨first.text ++ (spaced others ++ (g.text ++ w.segments.dropLast.flatMap Segment.text)),
      w.segments.getLast w.written,?_,?_,first.value::others.map fun w => w.2.value,
      [] ++ w.segments.dropLast.flatMap Segment.value,false || !w.segments.dropLast.isEmpty,fun rest => ?_⟩
    · simp [Rendering.segments,List.getLast?_append,List.getLast?_eq_getLast_of_ne_nil w.written]
    · have text : w.text = (w.segments.dropLast ++ [w.segments.getLast w.written]).flatMap Segment.text := by
        rw [split,Word.text]
      simp [Rendering.core,spaced,text]
    · simp only [List.append_assoc]
      exact (entered _).trans (scanSegments _ [] false w.segments.dropLast rest)

def Undoes (commandLine : Text) : Prop :=
  (∀ r : Rendering, r.text = commandLine → r.first.value ≠ [] →
    parseVerificationCommand commandLine = .ok r.argv) ∧
  ((∀ r : Rendering, r.text = commandLine → r.first.value = []) →
    ∃ e, parseVerificationCommand commandLine = .error e)

def EndsEscaped (commandLine : Text) : Prop :=
  ∃ (r : Rendering) (c : Blank), r.text = commandLine ∧ r.first.value ≠ [] ∧
    r.segments.getLast? = some (.escaped c)

theorem renderingText (r : Rendering) :
    r.text = r.lead.map Subtype.val ++ r.core ++ r.trail.map Subtype.val := by
  simp [Rendering.text,Rendering.core]

theorem acceptedSource {commandLine : Text} {argv : List Text}
    (accepted : parseVerificationCommand commandLine = .ok argv) :
    ∃ r : Rendering, r.text = commandLine ∧ r.argv = argv ∧ r.first.value ≠ [] := by
  simp only [parseVerificationCommand] at accepted
  split at accepted
  · cases accepted
  · obtain ⟨r,text,words,named⟩ := scanSource accepted
    obtain ⟨lead,trail,parts⟩ := trimParts commandLine
    refine ⟨⟨lead ++ r.lead,r.first,r.others,r.trail ++ trail⟩,?_,words,named⟩
    rw [parts,← text]
    simp [Rendering.text]

theorem renderingParsed (r : Rendering) (named : r.first.value ≠ [])
    (ordinary : ∀ c : Blank, r.segments.getLast? ≠ some (.escaped c)) :
    parseVerificationCommand r.text = .ok r.argv := by
  obtain ⟨c,rest,opens,apart⟩ := coreOpens r
  obtain ⟨front,segment,last,core,-⟩ := coreCloses r
  obtain ⟨inner,d,closes,escaped⟩ := segmentCloses segment
  have unspaced : isSpace d = false :=
    Bool.eq_false_iff.mpr fun space => ordinary ⟨d,space⟩ (last.trans (congrArg some (escaped space)))
  have stripped : trim r.text = r.core := by
    rw [renderingText]
    refine trimmed r.lead r.trail r.core (fun e first => ?_) fun e last => ?_
    · rw [opens] at first
      cases first
      exact apart
    · rw [core,closes,← List.append_assoc,List.getLast?_concat] at last
      cases last
      exact unspaced
  have read := scanRendering ⟨[],r.first,r.others,[]⟩ rfl rfl named
  simp only [parseVerificationCommand,stripped]
  rw [if_neg (opens ▸ List.cons_ne_nil c rest)]
  simpa [Rendering.text,Rendering.core,Rendering.argv] using read

theorem escapedRejected (r : Rendering) (c : Blank) (last : r.segments.getLast? = some (.escaped c)) :
    parseVerificationCommand r.text = .error "Verification command ends with an incomplete escape" := by
  obtain ⟨front,segment,last',core,argv,token,started,read⟩ := coreCloses r
  obtain rfl := Option.some.inj (last'.symm.trans last)
  obtain ⟨d,rest,opens,apart⟩ := coreOpens r
  have stripped : trim r.text = front ++ [backslash] := by
    have parts : r.text = r.lead.map Subtype.val ++ (front ++ [backslash]) ++
        (c::r.trail).map Subtype.val := by
      rw [renderingText,core]
      simp [Segment.text]
    rw [parts]
    refine trimmed r.lead (c::r.trail) (front ++ [backslash]) (fun e first => ?_) fun e last => ?_
    · have head : r.core.head? = some e := by
        rw [core]
        cases front <;> exact first
      rw [opens] at head
      cases head
      exact apart
    · rw [List.getLast?_concat] at last
      cases last
      decide
  simp only [parseVerificationCommand,stripped]
  rw [if_neg (by simp),read,scanEscapeEnd]

theorem commandParsed (commandLine : Text) : Undoes commandLine ↔ ¬ EndsEscaped commandLine := by
  constructor
  · rintro ⟨renders,-⟩ ⟨r,c,rfl,named,last⟩
    have accepted := renders r rfl named
    rw [escapedRejected r c last] at accepted
    cases accepted
  · intro ordinary
    refine ⟨?_,fun foreign => ?_⟩
    · rintro r rfl named
      exact renderingParsed r named fun c last => ordinary ⟨r,c,rfl,named,last⟩
    · cases parsed : parseVerificationCommand commandLine with
      | error e => exact ⟨e,rfl⟩
      | ok argv =>
        obtain ⟨r,text,-,named⟩ := acceptedSource parsed
        exact absurd (foreign r text) named

def escapedBlank : Rendering :=
  ⟨[],⟨[.bare 97 (by decide),.escaped 32],List.cons_ne_nil _ _⟩,[],[]⟩

theorem escapedBlankRejected : ¬ Undoes escapedBlank.text := by
  intro undoes
  have accepted := undoes.1 escapedBlank rfl (by decide)
  rw [escapedRejected escapedBlank ⟨32,by decide⟩ rfl] at accepted
  cases accepted

end ControlCenter.VerificationCommand
