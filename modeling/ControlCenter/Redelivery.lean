import ControlCenter.AccpIds
import Mathlib.Data.List.DropRight

/-! The receiver's side of redelivery: the bounded index of the message ids it has seen,
and the cursor up to which the events of its batches are applied. -/
namespace ControlCenter.Redelivery
open AccpIds

-- The constructor. A capacity that is no integer is refused with the same error.
def newIndex (capacity : Int) : Except String MessageDedupIndex :=
  if capacity ≤ 0 then .error "capacity must be a positive integer"
  else .ok ⟨[],capacity.toNat⟩

def checkAll (index : MessageDedupIndex) : List String → List (String × Bool) × MessageDedupIndex
  | [] => ([],index)
  | id::rest =>
      let (duplicate,next) := index.check id
      let (answers,last) := checkAll next rest
      ((id,duplicate)::answers,last)

def recorded (answers : List (String × Bool)) : List String :=
  (answers.filter fun a => !a.2).map Prod.fst

theorem recordedCons (a : String × Bool) (answers : List (String × Bool)) :
    recorded (a::answers) = recorded [a] ++ recorded answers := by
  unfold recorded
  rw [← List.map_append,← List.filter_append,List.singleton_append]

section
variable {A : Type}

theorem windowSlides (n : Nat) (xs : List A) (x : A) :
    (if n < (xs.rtake n ++ [x]).length then (xs.rtake n ++ [x]).tail else xs.rtake n ++ [x]) =
      (xs ++ [x]).rtake n := by
  unfold List.rtake
  rcases Nat.lt_or_ge xs.length n with short | full
  · have all : xs.length - n = 0 := by omega
    have more : (xs ++ [x]).length - n = 0 := by simp; omega
    rw [all,more,List.drop_zero,List.drop_zero,if_neg (by simp; omega)]
  · have length : n < (xs.drop (xs.length - n) ++ [x]).length := by simp; omega
    have next : (xs ++ [x]).length - n = xs.length - n + 1 := by simp; omega
    rw [if_pos length,next,← List.tail_drop,
      List.drop_append_of_le_length (Nat.sub_le xs.length n)]

end

structure Window (n : Nat) (past : List String) (index : MessageDedupIndex) : Prop where
  seen : index.seen = past.rtake n
  capacity : index.capacity = n

theorem checkWindow {n : Nat} {past : List String} {index : MessageDedupIndex}
    (window : Window n past index) (id : String) :
    Window n (past ++ recorded [(id,(index.check id).1)]) (index.check id).2 := by
  unfold MessageDedupIndex.check
  split
  · simpa [recorded] using window
  · refine ⟨?_,window.capacity⟩
    simp only [window.seen,window.capacity]
    exact windowSlides n past id

theorem checksWindow {n : Nat} (calls : List String) {past : List String}
    {index : MessageDedupIndex} (window : Window n past index) :
    Window n (past ++ recorded (checkAll index calls).1) (checkAll index calls).2 := by
  induction calls generalizing past index with
  | nil => simpa [checkAll,recorded] using window
  | cons id rest ih =>
    have next := ih (checkWindow window id)
    rw [List.append_assoc,← recordedCons] at next
    exact next

theorem windowAnswer {n : Nat} {past : List String} {index : MessageDedupIndex}
    (window : Window n past index) (id : String) :
    (index.check id).1 = true ↔ id ∈ past.rtake n := by
  unfold MessageDedupIndex.check
  rw [window.seen]
  split <;> simp_all

theorem windowBounded {n : Nat} {past : List String} {index : MessageDedupIndex}
    (window : Window n past index) : index.seen.length ≤ n := by
  rw [window.seen,List.rtake,List.length_drop]
  omega

theorem slidingWindow (n : Nat) (positive : 1 ≤ n) :
    ∃ index, newIndex n = .ok index ∧ ∀ calls,
      (∀ id, ((checkAll index calls).2.check id).1 = true ↔
        id ∈ (recorded (checkAll index calls).1).rtake n) ∧
      (checkAll index calls).2.seen.length ≤ n := by
  refine ⟨⟨[],n⟩,?_,fun calls => ?_⟩
  · rw [newIndex,if_neg (by omega),Int.toNat_natCast]
  · have opened : Window n [] ⟨[],n⟩ := ⟨by simp [List.rtake],rfl⟩
    have window := checksWindow calls opened
    exact ⟨windowAnswer window,windowBounded window⟩

theorem slidingWindowThree :
    ∃ index, newIndex 3 = .ok index ∧ ∀ calls,
      (∀ id, ((checkAll index calls).2.check id).1 = true ↔
        id ∈ (recorded (checkAll index calls).1).rtake 3) ∧
      (checkAll index calls).2.seen.length ≤ 3 :=
  slidingWindow 3 (by decide)

example : (newIndex 3).toOption.map (fun index =>
    ((checkAll index ["m1","m1","m2","m3","m4","m1"]).1.map Prod.snd)) =
      some [false,true,false,false,false,false] := by decide

inductive CursorDecision where
  | accept
  | duplicate (ackAt : Int)
  | overlap (applyFromCursor : Int)
  | gap (missingFromCursor missingToCursor : Int)
  deriving DecidableEq, Repr

def decideCursorAction (highestContiguousAcked batchFirstCursor batchLastCursor : Int) :
    Except String CursorDecision :=
  if batchLastCursor < batchFirstCursor then .error "batch cursor range is inverted"
  else if batchLastCursor ≤ highestContiguousAcked then .ok (.duplicate highestContiguousAcked)
  else if batchFirstCursor ≤ highestContiguousAcked then
    .ok (.overlap (highestContiguousAcked + 1))
  else if batchFirstCursor = highestContiguousAcked + 1 then .ok .accept
  else .ok (.gap (highestContiguousAcked + 1) (batchFirstCursor - 1))

structure Batch where
  first : Int
  last : Int
  ordered : first ≤ last
  deriving DecidableEq

def cursors (first last : Int) : List Int :=
  (List.range (last + 1 - first).toNat).map fun i : Nat => first + i

structure Receiver where
  highest : Int
  applied : List Int
  deriving DecidableEq

def Receiver.apply (r : Receiver) (first last : Int) : Receiver :=
  ⟨last,r.applied ++ cursors first last⟩

def receive (r : Receiver) (b : Batch) : Receiver :=
  match decideCursorAction r.highest b.first b.last with
  | .ok .accept => r.apply b.first b.last
  | .ok (.overlap applyFromCursor) => r.apply applyFromCursor b.last
  | _ => r

theorem receiveCases (r : Receiver) (b : Batch) :
    ((b.last ≤ r.highest ∨ r.highest + 1 < b.first) ∧ receive r b = r) ∨
      (b.first ≤ r.highest + 1 ∧ r.highest < b.last ∧
        receive r b = r.apply (r.highest + 1) b.last) := by
  have ordered := b.ordered
  unfold receive decideCursorAction
  rw [if_neg (by omega)]
  by_cases old : b.last ≤ r.highest
  · exact .inl ⟨.inl old,by rw [if_pos old]⟩
  rw [if_neg old]
  by_cases overlap : b.first ≤ r.highest
  · exact .inr ⟨by omega,by omega,by rw [if_pos overlap]⟩
  rw [if_neg overlap]
  by_cases next : b.first = r.highest + 1
  · exact .inr ⟨by omega,by omega,by rw [if_pos next,← next]⟩
  · exact .inl ⟨.inr (by omega),by rw [if_neg next]⟩

theorem cursorListed (first last c : Int) : c ∈ cursors first last ↔ first ≤ c ∧ c ≤ last := by
  simp only [cursors,List.mem_map,List.mem_range]
  constructor
  · rintro ⟨i,bound,rfl⟩
    omega
  · rintro ⟨low,high⟩
    exact ⟨(c - first).toNat,by omega,by omega⟩

theorem cursorsNone {first last : Int} (none_ : last < first) : cursors first last = [] := by
  have zero : (last + 1 - first).toNat = 0 := by omega
  rw [cursors,zero]
  rfl

theorem cursorsDistinct (first last : Int) : (cursors first last).Nodup := by
  refine List.Nodup.map (fun i j same => ?_) List.nodup_range
  have equal : first + (i : Int) = first + j := same
  omega

theorem cursorsJoin {first middle last : Int} (low : first ≤ middle + 1) (high : middle ≤ last) :
    cursors first middle ++ cursors (middle + 1) last = cursors first last := by
  have count : (last + 1 - first).toNat =
      (middle + 1 - first).toNat + (last + 1 - (middle + 1)).toNat := by omega
  unfold cursors
  rw [count,List.range_add,List.map_append,List.map_map]
  congr 1
  apply List.map_congr_left
  intro i _
  simp only [Function.comp]
  omega

structure InOrder (start : Int) (r : Receiver) : Prop where
  reached : start ≤ r.highest
  applied : r.applied = cursors (start + 1) r.highest

theorem receiveInOrder {start : Int} {r : Receiver} (order : InOrder start r) (b : Batch) :
    InOrder start (receive r b) := by
  have reached := order.reached
  rcases receiveCases r b with ⟨_,same⟩ | ⟨_,later,taken⟩
  · rwa [same]
  · rw [taken]
    refine ⟨by show start ≤ b.last; omega,?_⟩
    show r.applied ++ cursors (r.highest + 1) b.last = cursors (start + 1) b.last
    rw [order.applied,cursorsJoin (by omega) (by omega)]

theorem receivedInOrder {start : Int} (batches : List Batch) {r : Receiver}
    (order : InOrder start r) : InOrder start (batches.foldl receive r) := by
  induction batches generalizing r with
  | nil => exact order
  | cons b rest ih => exact ih (receiveInOrder order b)

theorem highestGrows (r : Receiver) (b : Batch) : r.highest ≤ (receive r b).highest := by
  rcases receiveCases r b with ⟨_,same⟩ | ⟨_,later,taken⟩
  · rw [same]
  · rw [taken]
    exact later.le

theorem highestKept (batches : List Batch) (r : Receiver) :
    r.highest ≤ (batches.foldl receive r).highest := by
  induction batches generalizing r with
  | nil => exact le_refl r.highest
  | cons b rest ih => exact (highestGrows r b).trans (ih (receive r b))

theorem highestReaches {r : Receiver} {b : Batch} (meets : b.first ≤ r.highest + 1) :
    b.last ≤ (receive r b).highest := by
  rcases receiveCases r b with ⟨old | gap,same⟩ | ⟨_,_,taken⟩
  · rwa [same]
  · omega
  · rw [taken]
    exact le_refl b.last

def Covered (first last : Int) (arrived : List Batch) : Prop :=
  ∃ parts : List Batch, parts.Sublist arrived ∧ parts.Pairwise (fun a b => a.first ≤ b.first) ∧
    ∀ c, first ≤ c → c ≤ last → ∃ b ∈ parts, b.first ≤ c ∧ c ≤ b.last

theorem coveredReached {last : Int} {parts arrived : List Batch} (among : parts.Sublist arrived)
    (ascending : parts.Pairwise (fun a b => a.first ≤ b.first)) {r : Receiver}
    (held : ∀ c, r.highest < c → c ≤ last → ∃ b ∈ parts, b.first ≤ c ∧ c ≤ b.last) :
    last ≤ (arrived.foldl receive r).highest := by
  induction among generalizing r with
  | slnil =>
    by_contra short
    obtain ⟨b,listed,_⟩ := held (r.highest + 1) (by omega) (by simp at short; omega)
    exact List.not_mem_nil listed
  | cons b among ih =>
    have grows := highestGrows r b
    exact ih ascending fun c above below => held c (by omega) below
  | cons_cons b among ih =>
    obtain ⟨smallest,ascending⟩ := List.pairwise_cons.mp ascending
    have grows := highestGrows r b
    by_cases done : last ≤ r.highest
    · exact done.trans (highestKept (b::_) r)
    -- The part with the next cursor begins no earlier than this one.
    obtain ⟨a,listed,low,_⟩ := held (r.highest + 1) (by omega) (by omega)
    have begins : b.first ≤ r.highest + 1 := by
      rcases List.mem_cons.mp listed with rfl | later
      · exact low
      · exact (smallest a later).trans low
    have reached := highestReaches begins
    refine ih ascending fun c above below => ?_
    obtain ⟨a,listed,bounds⟩ := held c (by omega) below
    rcases List.mem_cons.mp listed with rfl | later
    · omega
    · exact ⟨a,later,bounds⟩

theorem reachedCovered (r : Receiver) (arrived : List Batch) :
    Covered (r.highest + 1) (arrived.foldl receive r).highest arrived := by
  induction arrived using List.reverseRecOn with
  | nil => exact ⟨[],List.Sublist.slnil,List.Pairwise.nil,fun c above below => by
      simp only [List.foldl_nil] at below
      omega⟩
  | append_singleton arrived b ih =>
    obtain ⟨parts,among,ascending,held⟩ := ih
    rw [List.foldl_append,List.foldl_cons,List.foldl_nil]
    generalize arrived.foldl receive r = before at held ⊢
    rcases receiveCases before b with ⟨_,same⟩ | ⟨meets,_,taken⟩
    · rw [same]
      exact ⟨parts,among.trans (List.sublist_append_left _ _),ascending,held⟩
    · rw [taken]
      refine ⟨(parts.filter fun a => decide (a.first ≤ b.first)) ++ [b],
        (List.filter_sublist.trans among).append (List.Sublist.refl [b]),?_,fun c above below => ?_⟩
      · refine List.pairwise_append.mpr ⟨ascending.filter _,List.pairwise_singleton _ _,?_⟩
        intro a kept last only
        rw [List.mem_singleton.mp only]
        exact of_decide_eq_true (List.mem_filter.mp kept).2
      · have low : c ≤ b.last := below
        by_cases late : b.first ≤ c
        · exact ⟨b,by simp,late,low⟩
        · obtain ⟨a,listed,bounds⟩ := held c above (by omega)
          have early : a.first ≤ b.first := by omega
          exact ⟨a,List.mem_append_left _ (List.mem_filter.mpr ⟨listed,decide_eq_true early⟩),
            bounds⟩

theorem Covered.shorter {first last middle : Int} {arrived : List Batch}
    (covered : Covered first last arrived) (less : middle ≤ last) :
    Covered first middle arrived := by
  obtain ⟨parts,among,ascending,held⟩ := covered
  exact ⟨parts,among,ascending,fun c low high => held c low (high.trans less)⟩

theorem gapTold {highest : Int} {b : Batch} {missingFrom missingTo : Int}
    (told : decideCursorAction highest b.first b.last = .ok (.gap missingFrom missingTo)) :
    missingFrom = highest + 1 ∧ missingTo = b.first - 1 ∧ highest + 1 < b.first := by
  unfold decideCursorAction at told
  repeat' split at told
  all_goals simp at told
  omega

theorem farTold {highest : Int} {b : Batch} (far : highest + 1 < b.first) :
    decideCursorAction highest b.first b.last = .ok (.gap (highest + 1) (b.first - 1)) := by
  have ordered := b.ordered
  unfold decideCursorAction
  rw [if_neg (by omega),if_neg (by omega),if_neg (by omega),if_neg (by omega)]

theorem highestMet {r : Receiver} {b : Batch} (meets : b.first ≤ r.highest + 1) :
    (receive r b).highest = max r.highest b.last := by
  rcases receiveCases r b with ⟨old | gap,same⟩ | ⟨_,later,taken⟩
  · rw [same,max_eq_left old]
  · omega
  · rw [taken,max_eq_right later.le]
    rfl

/-- Every cursor is applied at most once and in order; a batch that begins no later than
the next cursor is applied to its end; a later one is told of the exact gap, and is applied
when it comes again exactly when ascending batches that cover the gap came before it. -/
theorem exactlyOnce (start : Int) (batches : List Batch) :
    let r := batches.foldl receive ⟨start,[]⟩
    (start ≤ r.highest ∧ r.applied = cursors (start + 1) r.highest ∧ r.applied.Nodup) ∧
    ∀ b : Batch,
      (b.first ≤ r.highest + 1 →
        (receive r b).applied = cursors (start + 1) (max r.highest b.last)) ∧
      (r.highest + 1 < b.first → receive r b = r ∧
        decideCursorAction r.highest b.first b.last = .ok (.gap (r.highest + 1) (b.first - 1))) ∧
      ∀ missingFrom missingTo,
        decideCursorAction r.highest b.first b.last = .ok (.gap missingFrom missingTo) →
        (missingFrom ≤ missingTo ∧
          ∀ c, (missingFrom ≤ c ∧ c ≤ missingTo) ↔ (r.highest < c ∧ c < b.first)) ∧
        ∀ arrived, let later := arrived.foldl receive r
          ((∀ c, b.first ≤ c → c ≤ b.last → c ∈ (receive later b).applied) ↔
            Covered missingFrom missingTo arrived) := by
  intro r
  have order : InOrder start r := receivedInOrder batches
    ⟨le_refl start,(cursorsNone (by show start < start + 1; omega)).symm⟩
  refine ⟨⟨order.reached,order.applied,order.applied ▸ cursorsDistinct _ _⟩,
    fun b => ⟨fun meets => ?_,fun far => ⟨?_,farTold far⟩,fun missingFrom missingTo told => ?_⟩⟩
  · rw [(receiveInOrder order b).applied,highestMet meets]
  · rcases receiveCases r b with ⟨_,same⟩ | ⟨meets,_⟩
    · exact same
    · omega
  obtain ⟨rfl,rfl,far⟩ := gapTold told
  refine ⟨⟨by omega,fun c => by omega⟩,fun arrived => ?_⟩
  intro later
  have final := receiveInOrder (receivedInOrder arrived order) b
  constructor
  · intro applied
    have covered : Covered (r.highest + 1) later.highest arrived := reachedCovered r arrived
    refine covered.shorter ?_
    by_contra short
    have refused : receive later b = later := by
      rcases receiveCases later b with ⟨_,same⟩ | ⟨meets,_⟩
      · exact same
      · omega
    have last := applied b.last b.ordered (le_refl b.last)
    rw [final.applied,cursorListed,refused] at last
    have ordered := b.ordered
    omega
  · rintro ⟨parts,among,ascending,held⟩ c low high
    have reached : b.first - 1 ≤ later.highest :=
      coveredReached among ascending fun c above below => held c (by omega) below
    rw [final.applied,cursorListed]
    have below := order.reached
    have met : b.last ≤ (receive later b).highest := highestReaches (by omega)
    exact ⟨by omega,high.trans met⟩

theorem descendingRefused : ¬∀ (start : Int) (batches : List Batch) (b : Batch)
    (missingFrom missingTo : Int) (arrived : List Batch),
    let r := batches.foldl receive ⟨start,[]⟩
    decideCursorAction r.highest b.first b.last = .ok (.gap missingFrom missingTo) →
    (∀ c, missingFrom ≤ c → c ≤ missingTo → ∃ a ∈ arrived, a.first ≤ c ∧ c ≤ a.last) →
    ∀ c, b.first ≤ c → c ≤ b.last → c ∈ (receive (arrived.foldl receive r) b).applied := by
  intro all
  have applied := all 100 [] ⟨111,115,by decide⟩ 101 110
    [⟨106,110,by decide⟩,⟨101,105,by decide⟩] (by decide) (fun c low high => by
      by_cases first : c ≤ 105
      · exact ⟨⟨101,105,by decide⟩,by simp,low,first⟩
      · exact ⟨⟨106,110,by decide⟩,by simp,by show 106 ≤ c; omega,high⟩) 111 (by decide) (by decide)
  exact absurd applied (by decide)

example : ([⟨101,105,by decide⟩,⟨109,110,by decide⟩,⟨104,108,by decide⟩,⟨101,105,by decide⟩,
    ⟨109,110,by decide⟩].foldl receive ⟨100,[]⟩).applied =
      [101,102,103,104,105,106,107,108,109,110] := by decide

end ControlCenter.Redelivery
