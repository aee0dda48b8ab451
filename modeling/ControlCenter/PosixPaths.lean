import Mathlib.Data.List.Basic
import Mathlib.Data.List.Infix

/-! Paths as a POSIX system reads them: their segments, what dots do to the segments before
them, and how one path is seen from another. Normalizing keeps where a path leads. -/
namespace ControlCenter.PosixPaths

abbrev Path := List Char
abbrev Segment := List Char

def dots : Segment := ['.','.']

def segments (path : Path) : List Segment := path.splitOn '/'

def absolute (path : Path) : Bool := path.head? == some '/'

-- What a segment does to those before it; dots can stay in front of a path that is not
-- anchored.
def push (above : Bool) (done : List Segment) (s : Segment) : List Segment :=
  if s = [] ∨ s = ['.'] then done
  else if s = dots then match done.getLast? with
    | none => if above then [dots] else []
    | some last => if last = dots then done ++ [dots] else done.dropLast
  else done ++ [s]

def reduce (above : Bool) (l : List Segment) : List Segment := l.foldl (push above) []

def joined (l : List Segment) : Path := ['/'].intercalate l

def normalize (path : Path) : Path :=
  let body := joined (reduce (!absolute path) (segments path))
  let ends := path.getLast? == some '/'
  if path = [] then ['.']
  else if body = [] then
    if absolute path then ['/'] else if ends then ['.','/'] else ['.']
  else (if absolute path then ['/'] else []) ++ body ++ if ends then ['/'] else []

def join (paths : List Path) : Path := match paths.filter fun path => !path.isEmpty with
  | [] => ['.']
  | given => normalize (joined given)

def resolve (cwd path : Path) : List Segment :=
  reduce false ((if absolute path then [] else segments cwd) ++ segments path)

def common : List Segment → List Segment → Nat
  | a::as,b::bs => if a = b then common as bs + 1 else 0
  | _,_ => 0

def relative (cwd start goal : Path) : Path :=
  let f := resolve cwd start
  let t := resolve cwd goal
  if f = t then []
  else joined (List.replicate (f.length - common f t) dots ++ t.drop (common f t))

structure Plain (s : Segment) : Prop where
  some : s ≠ []
  dot : s ≠ ['.']
  dots : s ≠ dots
  slash : '/' ∉ s

section
variable {above : Bool} {path base cwd start goal : Path} {s : Segment} {l m : List Segment}

theorem slashless (inside : s ∈ segments path) : '/' ∉ s := by
  unfold segments at inside
  induction path generalizing s with
  | nil =>
    rw [List.splitOn_nil] at inside
    rw [List.mem_singleton.mp inside]
    exact List.not_mem_nil
  | cons c rest ih =>
    rw [List.splitOn_cons_eq_if_modifyHead] at inside
    split at inside
    · rcases List.mem_cons.mp inside with rfl | inside
      · exact List.not_mem_nil
      · exact ih inside
    next other =>
      cases parts : rest.splitOn '/' with
      | nil => exact absurd parts (List.splitOn_ne_nil _ _)
      | cons part parts' =>
        rw [parts] at inside ih
        rcases List.mem_cons.mp inside with rfl | inside
        · intro slash
          rcases List.mem_cons.mp slash with same | slash
          · exact other (beq_iff_eq.mpr same.symm)
          · exact ih List.mem_cons_self slash
        · exact ih (List.mem_cons_of_mem _ inside)

theorem pushPlain (some_ : s ≠ []) (dot : s ≠ ['.']) (up : s ≠ dots) :
    push above l s = l ++ [s] := by
  rw [push,if_neg (by simp [some_,dot]),if_neg up]

theorem pushEmpty : push above l [] = l := if_pos (.inl rfl)

theorem pushBack (other : s ≠ dots) : push above (l ++ [s]) dots = l := by
  rw [push,if_neg (by decide),if_pos rfl,List.getLast?_concat]
  dsimp only
  rw [if_neg other,List.dropLast_concat]

theorem pushDots : push above (l ++ [dots]) dots = l ++ [dots] ++ [dots] := by
  rw [push,if_neg (by decide),if_pos rfl,List.getLast?_concat]
  exact if_pos rfl

theorem pushProper (proper : ∀ t ∈ l, t ≠ [] ∧ t ≠ ['.'] ∧ '/' ∉ t) (slash : '/' ∉ s) :
    ∀ t ∈ push above l s, t ≠ [] ∧ t ≠ ['.'] ∧ '/' ∉ t := by
  have up : dots ≠ [] ∧ dots ≠ ['.'] ∧ '/' ∉ dots := by decide
  have added {s : Segment} (own : s ≠ [] ∧ s ≠ ['.'] ∧ '/' ∉ s) :
      ∀ t ∈ l ++ [s], t ≠ [] ∧ t ≠ ['.'] ∧ '/' ∉ t := by
    intro t inside
    rcases List.mem_append.mp inside with old | new
    · exact proper t old
    · exact List.mem_singleton.mp new ▸ own
  intro t inside
  unfold push at inside
  split at inside
  · exact proper t inside
  next visible =>
    have visible := not_or.mp visible
    split at inside
    · split at inside
      · split at inside
        · exact List.mem_singleton.mp inside ▸ up
        · exact absurd inside List.not_mem_nil
      · split at inside
        · exact added up t inside
        · exact proper t (List.mem_of_mem_dropLast inside)
    · exact added ⟨visible.1,visible.2,slash⟩ t inside

theorem reduceProper (slashes : ∀ s ∈ l, '/' ∉ s) :
    ∀ t ∈ reduce above l, t ≠ [] ∧ t ≠ ['.'] ∧ '/' ∉ t := by
  have each (start : List Segment) (proper : ∀ t ∈ start, t ≠ [] ∧ t ≠ ['.'] ∧ '/' ∉ t) :
      ∀ t ∈ l.foldl (push above) start, t ≠ [] ∧ t ≠ ['.'] ∧ '/' ∉ t := by
    induction l generalizing start with
    | nil => exact proper
    | cons s rest ih =>
      exact ih (fun t inside => slashes t (List.mem_cons_of_mem _ inside)) _
        (pushProper proper (slashes s List.mem_cons_self))
  exact each [] fun t inside => absurd inside List.not_mem_nil

theorem reduceDotless : ∀ t ∈ reduce false l, t ≠ dots := by
  have each (start : List Segment) (dotless : ∀ t ∈ start, t ≠ dots) :
      ∀ t ∈ l.foldl (push false) start, t ≠ dots := by
    induction l generalizing start with
    | nil => exact dotless
    | cons s rest ih =>
      refine ih _ fun t inside => ?_
      unfold push at inside
      split at inside
      · exact dotless t inside
      split at inside
      · split at inside
        · rw [if_neg Bool.false_ne_true] at inside
          exact absurd inside List.not_mem_nil
        next last found =>
          have there : last ∈ start := List.mem_of_getLast? found
          rw [if_neg (dotless last there)] at inside
          exact dotless t (List.mem_of_mem_dropLast inside)
      next other =>
        rcases List.mem_append.mp inside with old | new
        · exact dotless t old
        · exact List.mem_singleton.mp new ▸ other
  exact each [] fun t inside => absurd inside List.not_mem_nil

theorem reduceAgain (slashes : ∀ s ∈ l, '/' ∉ s) (start : List Segment) :
    (reduce true l).foldl (push false) start = l.foldl (push false) start := by
  induction l using List.reverseRecOn with
  | nil => rfl
  | append_singleton l s ih =>
    have slashes' := fun t inside => slashes t (List.mem_append_left _ inside)
    have ih := ih slashes'
    have proper : ∀ t ∈ reduce true l, t ≠ [] ∧ t ≠ ['.'] ∧ '/' ∉ t := reduceProper slashes'
    have last : reduce true (l ++ [s]) = push true (reduce true l) s := by
      rw [reduce,List.foldl_append]
      rfl
    rw [last,List.foldl_append,List.foldl_cons,List.foldl_nil,← ih]
    generalize reduce true l = n at proper
    by_cases hidden : s = [] ∨ s = ['.']
    · have kept (above : Bool) (done : List Segment) : push above done s = done := if_pos hidden
      rw [kept,kept]
    obtain ⟨some_,dot⟩ := not_or.mp hidden
    by_cases up : s = dots
    · subst up
      cases n using List.reverseRecOn with
      | nil => rfl
      | append_singleton front x =>
        by_cases above : x = dots
        · subst above
          rw [pushDots,List.foldl_append]
          rfl
        · obtain ⟨some_,dot,_⟩ := proper x (List.mem_append_right _ List.mem_cons_self)
          rw [pushBack above,List.foldl_append,List.foldl_cons,List.foldl_nil,
            pushPlain some_ dot above,pushBack above]
    · rw [pushPlain some_ dot up,List.foldl_append]
      rfl

theorem reducePlain (plain : ∀ s ∈ l, Plain s) (start : List Segment) :
    l.foldl (push above) start = start ++ l := by
  induction l generalizing start with
  | nil => exact (List.append_nil _).symm
  | cons s rest ih =>
    have own := plain s List.mem_cons_self
    rw [List.foldl_cons,pushPlain own.some own.dot own.dots,
      ih fun t inside => plain t (List.mem_cons_of_mem _ inside),List.append_assoc]
    rfl

theorem reducedPlain (slashes : ∀ s ∈ l, '/' ∉ s) : ∀ t ∈ reduce false l, Plain t := fun t inside =>
  have proper := reduceProper slashes t inside
  ⟨proper.1,proper.2.1,reduceDotless t inside,proper.2.2⟩

theorem segmentsJoined (some_ : l ≠ []) (slashes : ∀ s ∈ l, '/' ∉ s) : segments (joined l) = l :=
  List.splitOn_intercalate '/' slashes some_

theorem joinedNil (proper : ∀ t ∈ l, t ≠ []) : joined l = [] ↔ l = [] := by
  constructor
  · intro none_
    cases l with
    | nil => rfl
    | cons s rest =>
      have own := proper s List.mem_cons_self
      cases rest with
      | nil => exact absurd none_ (by simpa [joined] using own)
      | cons t rest => simp [joined,own] at none_
  · rintro rfl
    rfl

def follow (start : List Segment) (path : Path) : List Segment :=
  (segments path).foldl (push false) (if absolute path then [] else start)

theorem resolveFollow : resolve cwd path = follow (reduce false (segments cwd)) path := by
  rw [resolve,follow,reduce,List.foldl_append]
  split <;> rfl

theorem followEnd (start : List Segment) (some_ : path ≠ []) (ends : Bool) :
    follow start (path ++ if ends then ['/'] else []) = follow start path := by
  cases ends with
  | false => exact congrArg (follow start) (List.append_nil path)
  | true =>
    have head : absolute (path ++ ['/']) = absolute path := by
      unfold absolute
      rw [List.head?_append_of_ne_nil _ some_]
    have split_ : segments (path ++ ['/']) = segments path ++ [[]] :=
      List.splitOn_append_cons_self path []
    rw [if_pos rfl,follow,head,split_,List.foldl_append,List.foldl_cons,pushEmpty]
    rfl

theorem followNormalize (start : List Segment) : follow start (normalize path) = follow start path := by
  have slashes (s : Segment) (inside : s ∈ segments path) : '/' ∉ s := slashless inside
  by_cases none_ : path = []
  · subst none_
    rfl
  cases anchored : absolute path with
  | true =>
    have target : follow start path = reduce false (segments path) := by
      rw [follow,anchored,if_pos rfl]
      rfl
    have plain := reducedPlain slashes
    simp only [normalize,anchored,Bool.not_true]
    rw [if_neg none_,target]
    generalize reduce false (segments path) = n at plain
    by_cases empty : n = []
    · subst empty
      rw [if_pos (by rfl),if_pos True.intro]
      rfl
    · rw [if_neg (fun same => empty ((joinedNil fun t inside => (plain t inside).some).mp same)),
        if_pos True.intro,List.singleton_append,followEnd start (List.cons_ne_nil _ _)]
      have split_ : segments ('/'::joined n) = []::n := by
        have parts : segments ('/'::joined n) = segments [] ++ segments (joined n) :=
          List.splitOn_append_cons_self [] (joined n)
        rw [parts,segmentsJoined empty fun s inside => (plain s inside).slash]
        rfl
      rw [follow,split_,List.foldl_cons,pushEmpty,reducePlain plain]
      rfl
  | false =>
    have target : follow start path = (segments path).foldl (push false) start := by
      rw [follow,anchored,if_neg Bool.false_ne_true]
    have again := reduceAgain slashes start
    have proper : ∀ t ∈ reduce true (segments path), t ≠ [] ∧ t ≠ ['.'] ∧ '/' ∉ t :=
      reduceProper slashes
    simp only [normalize,anchored,Bool.not_false]
    rw [if_neg none_,target,← again]
    generalize reduce true (segments path) = n at proper
    by_cases empty : n = []
    · subst empty
      rw [if_pos (by rfl),if_neg Bool.false_ne_true]
      split <;> rfl
    · have some_ : joined n ≠ [] := fun same =>
        empty ((joinedNil fun t inside => (proper t inside).1).mp same)
      rw [if_neg some_,if_neg Bool.false_ne_true,List.nil_append,followEnd start some_]
      have relative_ : absolute (joined n) = false := by
        cases n with
        | nil => exact absurd rfl empty
        | cons s rest =>
          obtain ⟨own,_,slash⟩ := proper s List.mem_cons_self
          cases s with
          | nil => exact absurd rfl own
          | cons c s =>
            have other : c ≠ '/' := fun same => slash (same ▸ List.mem_cons_self)
            cases rest <;> simp [absolute,joined,other]
      rw [follow,relative_,segmentsJoined empty fun s inside => (proper s inside).2.2]
      rfl

/-- Joining a plain segment to a path leads one segment further than the path. -/
theorem resolveJoin (plain : Plain s) : resolve cwd (join [base,s]) = resolve cwd base ++ [s] := by
  have some_ : ([base,s].filter fun path => !path.isEmpty) = if base = [] then [s] else [base,s] := by
    cases base with
    | nil => simp [plain.some]
    | cons c base => simp [plain.some]
  rw [join,some_,resolveFollow,resolveFollow]
  have own : segments s = [s] := List.splitOn_eq_singleton plain.slash
  by_cases none_ : base = []
  · subst none_
    have relative_ : absolute s = false := by
      cases s with
      | nil => exact absurd rfl plain.some
      | cons c s =>
        have other : c ≠ '/' := fun same => plain.slash (same ▸ List.mem_cons_self)
        simp [absolute,other]
    have alone : joined [s] = s := by simp [joined]
    rw [if_pos rfl]
    dsimp only
    rw [followNormalize,alone,follow,relative_,own,List.foldl_cons,
      pushPlain plain.some plain.dot plain.dots]
    rfl
  · have both : joined [base,s] = base ++ '/'::s := by simp [joined]
    have head : absolute (base ++ '/'::s) = absolute base := by
      unfold absolute
      rw [List.head?_append_of_ne_nil _ none_]
    have parts : segments (base ++ '/'::s) = segments base ++ segments s :=
      List.splitOn_append_cons_self base s
    rw [if_neg none_]
    dsimp only
    rw [followNormalize,both,follow,head,parts,own,List.foldl_append,List.foldl_cons,
      pushPlain plain.some plain.dot plain.dots]
    rfl

theorem commonTake (f t : List Segment) : f.take (common f t) = t.take (common f t) := by
  induction f generalizing t with
  | nil => cases t <;> rfl
  | cons a f ih =>
    cases t with
    | nil => rfl
    | cons b t =>
      unfold common
      split
      next same => rw [same,List.take_succ_cons,List.take_succ_cons,ih]
      next => rfl

def outside (path : Path) : Bool :=
  path == [] || path == dots || (dots ++ ['/']).isPrefixOf path || absolute path

/-- What is not outside lies below. -/
theorem relativeBelow (inside : outside (relative cwd start goal) = false) :
    ∃ more, more ≠ [] ∧ resolve cwd goal = resolve cwd start ++ more := by
  simp only [outside,Bool.or_eq_false_iff,beq_eq_false_iff_ne] at inside
  obtain ⟨⟨⟨some_,up⟩,above⟩,_⟩ := inside
  unfold relative at some_ up above
  generalize resolve cwd start = f at some_ up above
  generalize resolve cwd goal = t at some_ up above
  dsimp only at some_ up above
  by_cases same : f = t
  · rw [if_pos same] at some_
    exact absurd rfl some_
  rw [if_neg same] at up above
  have shared := commonTake f t
  cases left : f.length - common f t with
  | zero =>
    have whole : f.take (common f t) = f := List.take_of_length_le (by omega)
    rw [whole] at shared
    refine ⟨t.drop (common f t),fun none_ => same ?_,?_⟩
    · have all := List.take_append_drop (common f t) t
      rw [none_,← shared,List.append_nil] at all
      exact all
    · exact (List.take_append_drop (common f t) t).symm.trans (congrArg (· ++ _) shared.symm)
  | succ n =>
    rw [left,List.replicate_succ,List.cons_append] at up above
    generalize List.replicate n dots ++ t.drop (common f t) = rest at up above
    cases rest with
    | nil => exact absurd (by simp [joined]) up
    | cons s rest =>
      have starts : dots ++ ['/'] <+: joined (dots::s::rest) := ⟨joined (s::rest),by simp [joined]⟩
      rw [List.isPrefixOf_iff_prefix.mpr starts] at above
      cases above

end

end ControlCenter.PosixPaths
