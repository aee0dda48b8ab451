import Mathlib.Algebra.GroupWithZero.Nat
import Mathlib.Data.List.AList
import Mathlib.Data.List.TakeWhile
import ControlCenter.DbReviews
import ControlCenter.RunLogic

/-! Mutation requests with an Idempotency-Key: the claim, the handler, its completion and a
release are separate steps, of any number of daemons on one database. -/
namespace ControlCenter.IdempotentRequests
open JsonValue Protocol Db RunLogic

def nul : Char := Char.ofNat 0

-- The HTTP parser lets no NUL into a method or a URL.
structure Request where
  method : String
  url : String
  body : String
  keyHeader : Option String
  methodPlain : nul ∉ method.toList
  urlPlain : nul ∉ url.toList

def hashed (r : Request) : String :=
  r.method ++ String.singleton nul ++ r.url ++ String.singleton nul ++ r.body

structure Sha256 where
  digest : String → String
  hex : ∀ text, DbReviews.sha256Text (digest text) = true

def requestFingerprint (sha : Sha256) (r : Request) : String := sha.digest (hashed r)

-- A row of idempotency_keys: a response is there exactly when the claim is completed.
inductive KeyState where
  | pending
  | completed (responseStatus : Int) (responseBody : Json)

structure IdempotencyRow where
  requestHash : String
  state : KeyState
  createdAt : Int
  updatedAt : Int

abbrev Keys := AList fun _ : String => IdempotencyRow

mutual
def sameText : Json → Json → Bool
  | .undefined,.undefined => true
  | .null,.null => true
  | .boolean a,.boolean b => a == b
  | .number a,.number b => a == b
  | .string a,.string b => a == b
  | .array a,.array b => sameTexts a b
  | .object a,.object b => sameFields a b
  | _,_ => false

def sameTexts : List Json → List Json → Bool
  | [],[] => true
  | v::rest,w::others => sameText v w && sameTexts rest others
  | _,_ => false

def sameFields : List (String × Json) → List (String × Json) → Bool
  | [],[] => true
  | (k,v)::rest,(l,w)::others => k == l && sameText v w && sameFields rest others
  | _,_ => false
end

def stored (body : Json) : Json := match body.image with
  | .undefined => .null
  | image => image

namespace Keys
variable (key hash : String) (now : Int) (keys : Keys)

def insertPending : Nat × Keys := match keys.lookup key with
  | none => (1,keys.insert key ⟨hash,.pending,now,now⟩)
  | some _ => (0,keys)

def pendingWith (row : IdempotencyRow) : Bool := match row.state with
  | .pending => row.requestHash == hash
  | .completed .. => false

def complete (status : Int) (body : Json) : Nat × Keys := match keys.lookup key with
  | none => (0,keys)
  | some row =>
    if pendingWith hash row then
      (1,keys.insert key {row with state := .completed status body,updatedAt := now})
    else (0,keys)

def release : Nat × Keys := match keys.lookup key with
  | none => (0,keys)
  | some row => if pendingWith hash row then (1,keys.erase key) else (0,keys)

end Keys

def normalizeIdempotencyValue (label value : String) : Outcome String :=
  let normalized := trim value
  if normalized = "" then .error s!"{label} is required"
  else if 512 < (utf16 normalized).length then .error s!"{label} must not exceed 512 characters"
  else .ok normalized

inductive ClaimAnswer where
  | conflict
  | pending
  | replay (responseStatus : Int) (responseBody : Json)

def IdempotencyRow.answer (row : IdempotencyRow) (hash : String) : ClaimAnswer :=
  if row.requestHash ≠ hash then .conflict
  else match row.state with
    | .pending => .pending
    | .completed status body => .replay status body

inductive Answer where
  | conflict
  | pending
  | replayed (status : Int) (body : Json)
  | sent (status : Int) (body : Json)

def ClaimAnswer.reply : ClaimAnswer → Answer
  | .conflict => .conflict
  | .pending => .pending
  | .replay status body => .replayed status body

inductive HandlerOutcome where
  | returned (status : Int) (data : Json)
  | threw (status : Int) (code message : String) (retryable : Bool) (details : Option Json)

def HandlerOutcome.status : HandlerOutcome → Int
  | .returned status _ => status
  | .threw status .. => status

def HandlerOutcome.body : HandlerOutcome → Json
  | .returned _ data => .object [("data",data)]
  | .threw _ code message retryable details => .object [("error",.object
      ([("code",.string code),("message",.string message),("retryable",.boolean retryable)] ++
        (details.map fun d => ("details",d)).toList))]

inductive Phase where
  | claiming (attempt : Nat)
  | reading (attempt : Nat)
  | claimed
  | handling
  | completing (status : Int) (body : Json)
  | verifying (status : Int) (body : Json) (changes : Nat)
  | answered (answer : Answer)
  | failed (error : String)
  | crashed

structure Thread where
  process : Nat
  request : Request
  key : String
  hash : String
  phase : Phase
  -- Its INSERT took the key; its handler was started.
  claimed : Bool
  started : Bool

def idempotencyKey (s : String) : Bool :=
  decide (1 ≤ (utf16 s).length) && decide ((utf16 s).length ≤ 200) &&
    (match s.toList with
      | [] => false
      | c::rest => ZodSchema.alphanumeric c &&
        rest.all fun c => ZodSchema.alphanumeric c || ['.','_',':','-'].contains c)

def prepared (sha : Sha256) (r : Request) : Outcome (String × String) := do
  let keyHeader ← found "Idempotency-Key is required for mutations" (nonempty r.keyHeader)
  if !idempotencyKey keyHeader then .error "Request validation failed"
  else
    let key ← normalizeIdempotencyValue "Idempotency key" keyHeader
    let hash ← normalizeIdempotencyValue "Request hash" (requestFingerprint sha r)
    .ok (key,hash)

def arrival (sha : Sha256) (process : Nat) (r : Request) : Thread := match prepared sha r with
  | .ok (key,hash) => ⟨process,r,key,hash,.claiming 0,false,false⟩
  | .error error => ⟨process,r,"","",.failed error,false,false⟩

-- What a step draws from outside: the clock, a failing statement, the end of the handler.
structure Draw where
  now : Int
  fails : Option String
  outcome : HandlerOutcome

def mismatch (key : String) (changes : Nat) : String :=
  if changes = 1 then s!"Idempotency key completion could not be verified: {key}"
  else s!"Idempotency key already has a different response: {key}"

def unverified (key hash : String) (status : Int) (body : Json) (changes : Nat) :
    Option IdempotencyRow → Option String
  | none => some s!"Idempotency key is not claimed: {key}"
  | some row =>
    if row.requestHash ≠ hash then some s!"Idempotency key request hash conflict: {key}"
    else match row.state with
      | .pending => some (mismatch key changes)
      | .completed storedStatus storedBody =>
        if storedStatus = status ∧ sameText storedBody (stored body) then none
        else some (mismatch key changes)

def Thread.claim (t : Thread) (attempt : Nat) (d : Draw) (keys : Keys) : Thread × Keys :=
  match d.fails with
  | some error => ({t with phase := .failed error},keys)
  | none => match Keys.insertPending t.key t.hash d.now keys with
    | (1,keys) => ({t with phase := .claimed,claimed := true},keys)
    | (_,keys) => ({t with phase := .reading attempt},keys)

def Thread.read (t : Thread) (attempt : Nat) (d : Draw) (keys : Keys) : Thread :=
  match d.fails with
  | some error => {t with phase := .failed error}
  | none => match keys.lookup t.key with
    | some row => {t with phase := .answered (row.answer t.hash).reply}
    | none =>
      if attempt = 0 then {t with phase := .claiming 1}
      else {t with phase := .failed s!"Idempotency key disappeared during claim: {t.key}"}

def Thread.complete (t : Thread) (status : Int) (body : Json) (d : Draw) (keys : Keys) :
    Thread × Keys :=
  if ¬(100 ≤ status ∧ status ≤ 599) then
    ({t with phase := .failed "Idempotent response status must be an integer from 100 to 599"},
      keys)
  else match d.fails with
    | some error => ({t with phase := .failed error},keys)
    | none =>
      let (changes,keys) := Keys.complete t.key t.hash d.now keys status (stored body)
      ({t with phase := .verifying status body changes},keys)

def Thread.verify (t : Thread) (status : Int) (body : Json) (changes : Nat) (d : Draw)
    (keys : Keys) : Thread := match d.fails with
  | some error => {t with phase := .failed error}
  | none => match unverified t.key t.hash status body changes (keys.lookup t.key) with
    | some error => {t with phase := .failed error}
    | none => {t with phase := .answered (.sent status body)}

def Thread.advance (t : Thread) (d : Draw) (keys : Keys) : Thread × Keys := match t.phase with
  | .claiming attempt => t.claim attempt d keys
  | .reading attempt => (t.read attempt d keys,keys)
  | .claimed => ({t with phase := .handling,started := true},keys)
  | .handling => ({t with phase := .completing d.outcome.status d.outcome.body},keys)
  | .completing status body => t.complete status body d keys
  | .verifying status body changes => (t.verify status body changes d keys,keys)
  | .answered _ | .failed _ | .crashed => (t,keys)

structure World where
  keys : Keys
  threads : List Thread
  -- The keys whose pending claims were released, one entry for each release.
  releases : List String

def World.initial : World := ⟨∅,[],[]⟩

inductive Event where
  | arrive (process : Nat) (request : Request)
  | turn (i : Nat) (draw : Draw)
  | crash (process : Nat)
  | release (key hash : String)

def Thread.crash (process : Nat) (t : Thread) : Thread := match t.phase with
  | .answered _ | .failed _ => t
  | _ => if t.process = process then {t with phase := .crashed} else t

def World.release (w : World) (key hash : String) : World :=
  match normalizeIdempotencyValue "Idempotency key" key,
      normalizeIdempotencyValue "Request hash" hash with
  | .ok key,.ok hash => match Keys.release key hash w.keys with
    | (1,keys) => {w with keys,releases := key::w.releases}
    | _ => w
  | _,_ => w

def step (sha : Sha256) (w : World) : Event → World
  | .arrive process request => {w with threads := w.threads ++ [arrival sha process request]}
  | .turn i draw => match w.threads[i]? with
    | none => w
    | some t =>
      let (t,keys) := t.advance draw w.keys
      {w with keys,threads := w.threads.set i t}
  | .crash process => {w with threads := w.threads.map (Thread.crash process)}
  | .release key hash => w.release key hash

def Phase.undecided : Phase → Bool
  | .claiming _ | .reading _ => true
  | _ => false

inductive Advances (t : Thread) (keys : Keys) : Thread → Keys → Prop
  | claims (now : Int) (undecided : t.phase.undecided = true) (free : keys.lookup t.key = none) :
      Advances t keys {t with phase := .claimed,claimed := true}
        (keys.insert t.key ⟨t.hash,.pending,now,now⟩)
  | starts (claimed : t.phase = .claimed) :
      Advances t keys {t with phase := .handling,started := true} keys
  | completes (row : IdempotencyRow) (status : Int) (body : Json) (now : Int) (phase : Phase)
      (there : keys.lookup t.key = some row) (mine : Keys.pendingWith t.hash row = true)
      (undecided : phase.undecided = false) (claimed : phase ≠ .claimed) :
      Advances t keys {t with phase}
        (keys.insert t.key {row with state := .completed status body,updatedAt := now})
  | moves (phase : Phase) (undecided : phase.undecided = true → t.phase.undecided = true)
      (claimed : phase ≠ .claimed) : Advances t keys {t with phase} keys

theorem claimAdvances {t : Thread} {attempt : Nat} {d : Draw} {keys : Keys}
    (claiming : t.phase = .claiming attempt) :
    Advances t keys (t.claim attempt d keys).1 (t.claim attempt d keys).2 := by
  have undecided : t.phase.undecided = true := by rw [claiming]; rfl
  unfold Thread.claim Keys.insertPending
  cases d.fails with
  | some error => exact .moves _ (fun _ => undecided) (by simp)
  | none =>
    dsimp only
    cases free : keys.lookup t.key with
    | none => exact .claims d.now undecided free
    | some row => exact .moves _ (fun _ => undecided) (by simp)

theorem readAdvances {t : Thread} {attempt : Nat} {d : Draw} {keys : Keys}
    (reading : t.phase = .reading attempt) : Advances t keys (t.read attempt d keys) keys := by
  have undecided : t.phase.undecided = true := by rw [reading]; rfl
  unfold Thread.read
  cases d.fails with
  | some error => exact .moves _ (fun _ => undecided) (by simp)
  | none =>
    dsimp only
    cases keys.lookup t.key with
    | some row => exact .moves _ (fun _ => undecided) (by simp)
    | none =>
      dsimp only
      split <;> exact .moves _ (fun _ => undecided) (by simp)

theorem completeAdvances {t : Thread} {status : Int} {body : Json} {d : Draw} {keys : Keys} :
    Advances t keys (t.complete status body d keys).1 (t.complete status body d keys).2 := by
  unfold Thread.complete
  split
  · exact .moves _ (fun undecided => by contradiction) (by simp)
  cases d.fails with
  | some error => exact .moves _ (fun undecided => by contradiction) (by simp)
  | none =>
    dsimp only
    unfold Keys.complete
    cases there : keys.lookup t.key with
    | none => exact .moves _ (fun undecided => by contradiction) (by simp)
    | some row =>
      dsimp only
      split
      · exact .completes row status (stored body) d.now _ there ‹_› rfl (by simp)
      · exact .moves _ (fun undecided => by contradiction) (by simp)

theorem verifyAdvances {t : Thread} {status : Int} {body : Json} {changes : Nat} {d : Draw}
    {keys : Keys} : Advances t keys (t.verify status body changes d keys) keys := by
  unfold Thread.verify
  cases d.fails with
  | some error => exact .moves _ (fun undecided => by contradiction) (by simp)
  | none =>
    dsimp only
    split <;> exact .moves _ (fun undecided => by contradiction) (by simp)

theorem advances (t : Thread) (d : Draw) (keys : Keys) :
    Advances t keys (t.advance d keys).1 (t.advance d keys).2 := by
  unfold Thread.advance
  cases phase : t.phase with
  | claiming attempt => exact claimAdvances phase
  | reading attempt => exact readAdvances phase
  | claimed => exact .starts phase
  | handling => exact .moves _ (fun undecided => by contradiction) (by simp)
  | completing status body => exact completeAdvances
  | verifying status body changes => exact verifyAdvances
  | answered answer => exact .moves t.phase id (by simp [phase])
  | failed error => exact .moves t.phase id (by simp [phase])
  | crashed => exact .moves t.phase id (by simp [phase])

theorem Advances.identity {t t' : Thread} {keys keys' : Keys} (moves : Advances t keys t' keys') :
    t'.key = t.key ∧ t'.hash = t.hash := by
  cases moves <;> exact ⟨rfl,rfl⟩

structure Honest (t : Thread) : Prop where
  undecided : t.phase.undecided = true → t.claimed = false
  claimed : t.phase = .claimed → t.claimed = true ∧ t.started = false
  started : t.started = true → t.claimed = true

theorem Honest.unstarted {t : Thread} (honest : Honest t) (undecided : t.phase.undecided = true) :
    t.started = false := by
  have unclaimed := honest.undecided undecided
  by_contra started
  rw [Bool.not_eq_false] at started
  rw [honest.started started] at unclaimed
  contradiction

theorem honestAdvances {t t' : Thread} {keys keys' : Keys} (honest : Honest t)
    (moves : Advances t keys t' keys') : Honest t' := by
  cases moves with
  | claims now undecided free =>
    exact ⟨fun _ => by contradiction,fun _ => ⟨rfl,honest.unstarted undecided⟩,fun _ => rfl⟩
  | starts claimed =>
    have held := (honest.claimed claimed).1
    exact ⟨fun _ => by contradiction,fun _ => by contradiction,fun _ => held⟩
  | completes row status body now phase there mine undecided claimed =>
    exact ⟨fun decided => absurd decided (by simp [undecided]),fun same => absurd same claimed,
      honest.started⟩
  | moves phase undecided claimed =>
    exact ⟨fun here => honest.undecided (undecided here),fun same => absurd same claimed,
      honest.started⟩

section
variable {threads : List Thread} {i : Nat} {t t' : Thread} {p : Thread → Bool}

theorem countSame (at_ : threads[i]? = some t) (same : p t' = p t) :
    (threads.set i t').countP p = threads.countP p := by
  obtain ⟨inside,found⟩ := List.getElem?_eq_some_iff.mp at_
  have counted : (if p threads[i] = true then 1 else 0) ≤ threads.countP p :=
    List.boole_getElem_le_countP inside
  rw [List.countP_set inside,same,← found]
  omega

theorem countMore (at_ : threads[i]? = some t) (before : p t = false) (after : p t' = true) :
    (threads.set i t').countP p = threads.countP p + 1 := by
  obtain ⟨inside,found⟩ := List.getElem?_eq_some_iff.mp at_
  rw [List.countP_set inside,found,before,after]
  rfl

end

def claimedFor (key : String) (t : Thread) : Bool := t.key == key && t.claimed
def startedFor (key : String) (t : Thread) : Bool := t.key == key && t.started

def World.starts (w : World) (key : String) : Nat := w.threads.countP (startedFor key)

structure Counted (w : World) : Prop where
  honest : ∀ t ∈ w.threads, Honest t
  claims : ∀ key, w.threads.countP (claimedFor key) =
    w.releases.count key + if (w.keys.lookup key).isSome then 1 else 0

theorem countedTurn {w : World} {i : Nat} {t t' : Thread} {keys : Keys} (counted : Counted w)
    (at_ : w.threads[i]? = some t) (moves : Advances t w.keys t' keys) :
    Counted {w with keys,threads := w.threads.set i t'} := by
  have honest := counted.honest t (List.mem_of_getElem? at_)
  constructor
  · intro u listed
    rcases List.mem_or_eq_of_mem_set listed with old | rfl
    · exact counted.honest u old
    · exact honestAdvances honest moves
  intro key
  have before := counted.claims key
  dsimp only
  cases moves with
  | claims now undecided free =>
    have unclaimed := honest.undecided undecided
    by_cases here : t.key = key
    · rw [countMore at_ (by simp [claimedFor,unclaimed]) (by simp [claimedFor,here]),before]
      subst here
      rw [free,AList.lookup_insert]
      rfl
    · rw [countSame at_ (by simp [claimedFor,here]),before,AList.lookup_insert_ne (Ne.symm here)]
  | starts claimed => rw [countSame at_ (by rfl),before]
  | completes row status body now phase there mine undecided claimed =>
    rw [countSame at_ (by rfl),before]
    by_cases here : t.key = key
    · subst here
      rw [there,AList.lookup_insert]
      rfl
    · rw [AList.lookup_insert_ne (Ne.symm here)]
  | moves phase undecided claimed => rw [countSame at_ (by rfl),before]

theorem releaseSource (w : World) (key hash : String) : w.release key hash = w ∨
    ∃ name wanted row, normalizeIdempotencyValue "Idempotency key" key = .ok name ∧
      normalizeIdempotencyValue "Request hash" hash = .ok wanted ∧
      w.keys.lookup name = some row ∧ Keys.pendingWith wanted row = true ∧
      w.release key hash = {w with keys := w.keys.erase name,releases := name::w.releases} := by
  unfold World.release
  cases named : normalizeIdempotencyValue "Idempotency key" key with
  | error e => exact .inl rfl
  | ok name =>
    cases hashed : normalizeIdempotencyValue "Request hash" hash with
    | error e => exact .inl rfl
    | ok wanted =>
      dsimp only
      unfold Keys.release
      cases there : w.keys.lookup name with
      | none => exact .inl rfl
      | some row =>
        dsimp only
        by_cases mine : Keys.pendingWith wanted row = true
        · exact .inr ⟨name,wanted,row,rfl,rfl,there,mine,by simp [mine]⟩
        · exact .inl (by simp [mine])

theorem arrivalHonest (sha : Sha256) (process : Nat) (r : Request) :
    Honest (arrival sha process r) ∧ (arrival sha process r).claimed = false := by
  unfold arrival
  split
  · exact ⟨⟨fun _ => rfl,fun _ => by contradiction,fun _ => by contradiction⟩,rfl⟩
  · exact ⟨⟨fun _ => rfl,fun _ => by contradiction,fun _ => by contradiction⟩,rfl⟩

theorem crashSource (process : Nat) (t : Thread) :
    t.crash process = t ∨ t.crash process = {t with phase := .crashed} := by
  unfold Thread.crash
  split
  · exact .inl rfl
  · exact .inl rfl
  · split
    · exact .inr rfl
    · exact .inl rfl

theorem crashHonest {process : Nat} {t : Thread} (honest : Honest t) :
    Honest (t.crash process) := by
  rcases crashSource process t with same | crashed
  · rwa [same]
  · rw [crashed]
    exact ⟨fun _ => by contradiction,fun _ => by contradiction,honest.started⟩

theorem crashClaimed (process : Nat) (key : String) :
    claimedFor key ∘ Thread.crash process = claimedFor key := by
  funext t
  rcases crashSource process t with same | crashed
  · simp only [Function.comp_apply,same]
  · simp only [Function.comp_apply,crashed]
    rfl

theorem countedStep (sha : Sha256) (w : World) (e : Event) (counted : Counted w) :
    Counted (step sha w e) := by
  cases e with
  | arrive process request =>
    obtain ⟨honest,unclaimed⟩ := arrivalHonest sha process request
    constructor
    · intro t listed
      rcases List.mem_append.mp listed with old | new
      · exact counted.honest t old
      · rwa [List.mem_singleton.mp new]
    · intro key
      have nothing : claimedFor key (arrival sha process request) = false := by
        simp [claimedFor,unclaimed]
      simp only [step,List.countP_append,List.countP_singleton,nothing]
      exact counted.claims key
  | turn i draw =>
    unfold step
    dsimp only
    cases at_ : w.threads[i]? with
    | none => exact counted
    | some t => exact countedTurn counted at_ (advances t draw w.keys)
  | crash process =>
    constructor
    · intro t listed
      obtain ⟨t₀,old,rfl⟩ := List.mem_map.mp listed
      exact crashHonest (counted.honest t₀ old)
    · intro key
      simp only [step,List.countP_map,crashClaimed]
      exact counted.claims key
  | release key hash =>
    unfold step
    dsimp only
    rcases releaseSource w key hash with same | ⟨name,wanted,row,_,_,there,mine,same⟩
    · rwa [same]
    · rw [same]
      refine ⟨counted.honest,fun k => ?_⟩
      have before := counted.claims k
      by_cases here : name = k
      · subst here
        rw [there] at before
        simp only [AList.lookup_erase,List.count_cons_self,Option.isSome_some,if_true,
          Option.isSome_none,Bool.false_eq_true,if_false] at before ⊢
        omega
      · rw [AList.lookup_erase_ne (Ne.symm here),List.count_cons_of_ne here]
        exact before

def Verdict (keys : Keys) (key hash : String) (a : Answer) : Prop :=
  ∃ row, keys.lookup key = some row ∧ (row.answer hash).reply = a

def Phase.rank : Phase → Nat
  | .claiming _ => 2
  | .reading _ => 1
  | _ => 0

def Phase.ended : Phase → Bool
  | .failed _ | .crashed => true
  | _ => false

def Event.turnsOf (i : Nat) : Event → Nat
  | .turn j _ => if j = i then 1 else 0
  | _ => 0

def Event.harms (i process : Nat) : Event → Bool
  | .turn j d => j == i && d.fails.isSome
  | .crash p => p == process
  | _ => false

def turnsOf (i : Nat) (events : List Event) : Nat := (events.map (Event.turnsOf i)).sum

theorem undecidedAdvance {t : Thread} {d : Draw} {keys : Keys} {a : Answer}
    (undecided : t.phase.undecided = true) (verdict : Verdict keys t.key t.hash a) :
    ∃ phase, t.advance d keys = ({t with phase},keys) ∧
      (phase = .answered a ∨ (phase.undecided = true ∧ phase.rank < t.phase.rank) ∨
        (phase.ended = true ∧ d.fails.isSome = true)) := by
  obtain ⟨row,there,read⟩ := verdict
  unfold Thread.advance
  cases at_ : t.phase with
  | claiming attempt =>
    simp only [Thread.claim,Keys.insertPending,there]
    cases fails : d.fails with
    | some error => exact ⟨_,rfl,.inr (.inr ⟨rfl,rfl⟩)⟩
    | none => exact ⟨_,rfl,.inr (.inl ⟨rfl,by simp [Phase.rank]⟩)⟩
  | reading attempt =>
    simp only [Thread.read,there]
    cases fails : d.fails with
    | some error => exact ⟨_,rfl,.inr (.inr ⟨rfl,rfl⟩)⟩
    | none => exact ⟨_,rfl,.inl (congrArg Phase.answered read)⟩
  | _ => rw [at_] at undecided; contradiction

structure Served (i : Nat) (a : Answer) (t : Thread) (events : List Event) (t' : Thread) :
    Prop where
  key : t'.key = t.key
  hash : t'.hash = t.hash
  process : t'.process = t.process
  unstarted : t'.started = false
  phase : t'.phase = .answered a ∨
    (t'.phase.undecided = true ∧ t'.phase.rank + turnsOf i events ≤ t.phase.rank) ∨
    (t'.phase.ended = true ∧ ∃ e ∈ events, e.harms i t.process = true)

theorem turnsLast (i : Nat) (front : List Event) (e : Event) :
    turnsOf i (front ++ [e]) = turnsOf i front + e.turnsOf i := by
  simp [turnsOf]

variable {sha : Sha256} {w : World} {i : Nat} {a : Answer} {t t' : Thread} {front : List Event}
  {e : Event}

theorem Served.still (served : Served i a t front t') (idle : e.turnsOf i = 0) :
    Served i a t (front ++ [e]) t' where
  key := served.key
  hash := served.hash
  process := served.process
  unstarted := served.unstarted
  phase := by
    rcases served.phase with answered | ⟨undecided,near⟩ | ⟨ended,e',listed,harms⟩
    · exact .inl answered
    · exact .inr (.inl ⟨undecided,by rw [turnsLast,idle]; exact near⟩)
    · exact .inr (.inr ⟨ended,e',List.mem_append_left _ listed,harms⟩)

theorem Served.turn (served : Served i a t front t') (d : Draw)
    (verdict : Verdict w.keys t.key t.hash a) :
    Served i a t (front ++ [.turn i d]) (t'.advance d w.keys).1 := by
  have own : (Event.turn i d).turnsOf i = 1 := if_pos rfl
  rcases served.phase with answered | ⟨undecided,near⟩ | ⟨ended,e',listed,harms⟩
  · have same : t'.advance d w.keys = (t',w.keys) := by
      unfold Thread.advance
      rw [answered]
    rw [same]
    exact ⟨served.key,served.hash,served.process,served.unstarted,.inl answered⟩
  · rw [← served.key,← served.hash] at verdict
    obtain ⟨phase,moved,next⟩ := undecidedAdvance undecided verdict
    rw [moved]
    refine ⟨served.key,served.hash,served.process,served.unstarted,?_⟩
    rcases next with answered | ⟨still,lower⟩ | ⟨ended,fails⟩
    · exact .inl answered
    · exact .inr (.inl ⟨still,by rw [turnsLast,own]; dsimp only; omega⟩)
    · refine .inr (.inr ⟨ended,_,List.mem_append_right _ List.mem_cons_self,?_⟩)
      simp [Event.harms,fails]
  · have same : t'.advance d w.keys = (t',w.keys) := by
      unfold Thread.advance
      cases at_ : t'.phase with
      | failed error => rfl
      | crashed => rfl
      | _ => simp [at_,Phase.ended] at ended
    rw [same]
    exact ⟨served.key,served.hash,served.process,served.unstarted,
      .inr (.inr ⟨ended,e',List.mem_append_left _ listed,harms⟩)⟩

theorem Served.crash (served : Served i a t front t') (process : Nat) :
    Served i a t (front ++ [.crash process]) (t'.crash process) := by
  by_cases own : process = t'.process
  · have harms : (Event.crash process).harms i t.process = true := by
      simp [Event.harms,own,served.process]
    rcases crashSource process t' with same | crashed
    · rw [same]
      exact served.still rfl
    · rw [crashed]
      exact ⟨served.key,served.hash,served.process,served.unstarted,
        .inr (.inr ⟨rfl,_,List.mem_append_right _ List.mem_cons_self,harms⟩)⟩
  · have same : t'.crash process = t' := by
      unfold Thread.crash
      split <;> first | rfl | exact if_neg (Ne.symm own)
    rw [same]
    exact served.still rfl

theorem servedStep (at_ : w.threads[i]? = some t') (served : Served i a t front t')
    (verdict : Verdict w.keys t.key t.hash a) :
    ∃ t'', (step sha w e).threads[i]? = some t'' ∧ Served i a t (front ++ [e]) t'' := by
  obtain ⟨inside,_⟩ := List.getElem?_eq_some_iff.mp at_
  cases e with
  | arrive process request =>
    refine ⟨t',?_,served.still rfl⟩
    rw [step,List.getElem?_append_left inside,at_]
  | turn j d =>
    by_cases own : j = i
    · subst own
      refine ⟨(t'.advance d w.keys).1,?_,served.turn d verdict⟩
      simp only [step,at_,List.getElem?_set_self inside]
    · refine ⟨t',?_,served.still (if_neg own)⟩
      unfold step
      dsimp only
      split
      · exact at_
      · rw [List.getElem?_set_ne own,at_]
  | crash process =>
    refine ⟨t'.crash process,?_,served.crash process⟩
    simp only [step,List.getElem?_map,at_,Option.map_some]
  | release key hash =>
    refine ⟨t',?_,served.still rfl⟩
    unfold step
    dsimp only
    rcases releaseSource w key hash with same | ⟨_,_,_,_,_,_,_,same⟩ <;> rw [same] <;> exact at_

theorem servedRun {events : List Event} (at_ : w.threads[i]? = some t)
    (undecided : t.phase.undecided = true) (unstarted : t.started = false)
    (verdicts : ∀ early late, events = early ++ late →
      Verdict (reach (step sha) w early).keys t.key t.hash a) :
    ∃ t', (reach (step sha) w events).threads[i]? = some t' ∧ Served i a t events t' := by
  induction events using List.reverseRecOn with
  | nil =>
    exact ⟨t,at_,rfl,rfl,rfl,unstarted,.inr (.inl ⟨undecided,Nat.le_refl _⟩)⟩
  | append_singleton front e ih =>
    obtain ⟨t',there,served⟩ := ih fun early late split =>
      verdicts early (late ++ [e]) (by rw [split,List.append_assoc])
    rw [reachLast]
    exact servedStep there served (verdicts front [e] rfl)

theorem pendingWithSource {hash : String} {row : IdempotencyRow} :
    Keys.pendingWith hash row = true ↔ row.state = .pending ∧ row.requestHash = hash := by
  unfold Keys.pendingWith
  cases row.state <;> simp

structure RowKept (row row' : IdempotencyRow) : Prop where
  request : row'.requestHash = row.requestHash
  completed : row' = row ∨ row.state = .pending

def Event.releases (key hash : String) : Event → Prop
  | .release k h => normalizeIdempotencyValue "Idempotency key" k = .ok key ∧
      normalizeIdempotencyValue "Request hash" h = .ok hash
  | _ => False

theorem rowAdvances {keys keys' : Keys} {key : String} {row : IdempotencyRow}
    (moves : Advances t keys t' keys') (there : keys.lookup key = some row) :
    ∃ row', keys'.lookup key = some row' ∧ RowKept row row' := by
  cases moves with
  | claims now undecided free =>
    have other : key ≠ t.key := by
      rintro rfl
      rw [free] at there
      contradiction
    exact ⟨row,by rw [AList.lookup_insert_ne other,there],rfl,.inl rfl⟩
  | starts claimed => exact ⟨row,there,rfl,.inl rfl⟩
  | completes row₀ status body now phase found mine undecided claimed =>
    by_cases here : key = t.key
    · subst here
      rw [found] at there
      cases Option.some.inj there
      exact ⟨_,AList.lookup_insert _,rfl,.inr (pendingWithSource.mp mine).1⟩
    · exact ⟨row,by rw [AList.lookup_insert_ne here,there],rfl,.inl rfl⟩
  | moves phase undecided claimed => exact ⟨row,there,rfl,.inl rfl⟩

theorem rowStep {key : String} {row : IdempotencyRow} (sha : Sha256) (e : Event)
    (there : w.keys.lookup key = some row) :
    (∃ row', (step sha w e).keys.lookup key = some row' ∧ RowKept row row') ∨
      ((step sha w e).keys.lookup key = none ∧ e.releases key row.requestHash ∧
        row.state = .pending) := by
  cases e with
  | arrive process request => exact .inl ⟨row,there,rfl,.inl rfl⟩
  | turn i d =>
    left
    unfold step
    dsimp only
    split
    · exact ⟨row,there,rfl,.inl rfl⟩
    · exact rowAdvances (advances _ d w.keys) there
  | crash process => exact .inl ⟨row,there,rfl,.inl rfl⟩
  | release k h =>
    unfold step
    dsimp only
    rcases releaseSource w k h with same | ⟨name,wanted,row₀,named,hashed,found,mine,same⟩
    · rw [same]
      exact .inl ⟨row,there,rfl,.inl rfl⟩
    · rw [same]
      by_cases here : key = name
      · subst here
        rw [found] at there
        cases Option.some.inj there
        obtain ⟨pending,hash⟩ := pendingWithSource.mp mine
        exact .inr ⟨AList.lookup_erase _ _,⟨named,by rw [hash]; exact hashed⟩,pending⟩
      · exact .inl ⟨row,by rw [AList.lookup_erase_ne here,there],rfl,.inl rfl⟩

theorem rowRun {key : String} {row : IdempotencyRow} (sha : Sha256) (events : List Event)
    (there : w.keys.lookup key = some row)
    (held : ∀ e ∈ events, ¬e.releases key row.requestHash) :
    ∃ row', (reach (step sha) w events).keys.lookup key = some row' ∧ RowKept row row' := by
  induction events using List.reverseRecOn with
  | nil => exact ⟨row,there,rfl,.inl rfl⟩
  | append_singleton front e ih =>
    obtain ⟨row₁,there₁,kept⟩ := ih fun e' listed => held e' (List.mem_append_left _ listed)
    rw [reachLast]
    rcases rowStep sha e there₁ with ⟨row₂,there₂,again⟩ | ⟨_,released,_⟩
    · refine ⟨row₂,there₂,again.request.trans kept.request,?_⟩
      rcases kept.completed with rfl | pending
      · exact again.completed
      · exact .inr pending
    · rw [kept.request] at released
      exact absurd released (held e (List.mem_append_right _ List.mem_cons_self))

theorem completedRun {key : String} {row : IdempotencyRow} {status : Int} {body : Json}
    (sha : Sha256) (events : List Event) (there : w.keys.lookup key = some row)
    (completed : row.state = .completed status body) :
    (reach (step sha) w events).keys.lookup key = some row := by
  induction events using List.reverseRecOn with
  | nil => exact there
  | append_singleton front e ih =>
    rw [reachLast]
    rcases rowStep sha e ih with ⟨row',there',kept⟩ | ⟨_,_,pending⟩
    · rcases kept.completed with rfl | pending
      · exact there'
      · rw [completed] at pending
        contradiction
    · rw [completed] at pending
      contradiction

structure SameRequest (r r' : Request) : Prop where
  method : r.method = r'.method
  url : r.url = r'.url
  body : r.body = r'.body

theorem plainSplit {a b a' b' : List Char} (plain : nul ∉ a) (plain' : nul ∉ a')
    (same : a ++ nul::b = a' ++ nul::b') : a = a' ∧ b = b' := by
  induction a generalizing a' with
  | nil =>
    cases a' with
    | nil => exact ⟨rfl,(List.cons.inj same).2⟩
    | cons c rest =>
      rw [List.nil_append,List.cons_append] at same
      exact absurd ((List.cons.inj same).1 ▸ List.mem_cons_self) plain'
  | cons c rest ih =>
    cases a' with
    | nil =>
      rw [List.nil_append,List.cons_append] at same
      exact absurd ((List.cons.inj same).1 ▸ List.mem_cons_self) plain
    | cons c' rest' =>
      rw [List.cons_append,List.cons_append] at same
      obtain ⟨head,tail⟩ := List.cons.inj same
      obtain ⟨front,back⟩ := ih (fun listed => plain (List.mem_cons_of_mem _ listed))
        (fun listed => plain' (List.mem_cons_of_mem _ listed)) tail
      exact ⟨by rw [head,front],back⟩

theorem hashedInjective {r r' : Request} (same : hashed r = hashed r') : SameRequest r r' := by
  have texts := congrArg String.toList same
  simp only [hashed,String.toList_append,String.toList_singleton,List.append_assoc,
    List.singleton_append] at texts
  obtain ⟨method,rest⟩ := plainSplit r.methodPlain r'.methodPlain texts
  obtain ⟨url,body⟩ := plainSplit r.urlPlain r'.urlPlain rest
  exact ⟨String.toList_injective method,String.toList_injective url,String.toList_injective body⟩

theorem SameRequest.hashed {r r' : Request} (same : SameRequest r r') :
    IdempotentRequests.hashed r = IdempotentRequests.hashed r' := by
  obtain ⟨method,url,body⟩ := same
  unfold IdempotentRequests.hashed
  rw [method,url,body]

theorem hexPlain {c : Char} (hex : ZodSchema.lowerHex c = true) : trimmable c = false := by
  have low : 48 ≤ c.toNat ∧ c.toNat ≤ 102 := by
    simp only [ZodSchema.lowerHex,ZodSchema.digit,Bool.or_eq_true,Bool.and_eq_true,
      decide_eq_true_eq,Char.le_def] at hex
    rcases hex with ⟨low,high⟩ | ⟨low,high⟩ <;>
      exact ⟨Nat.le_trans (by decide) low,Nat.le_trans high (by decide)⟩
  exact visiblePlain (by omega) (by omega)

theorem digestKept (sha : Sha256) (text : String) : trim (sha.digest text) = sha.digest text := by
  have hex := sha.hex text
  simp only [DbReviews.sha256Text,Bool.and_eq_true,List.all_eq_true] at hex
  exact trimPlain fun c listed => hexPlain (hex.2 c listed)

theorem normalizeSource {label value normalized : String}
    (h : normalizeIdempotencyValue label value = .ok normalized) : normalized = trim value := by
  unfold normalizeIdempotencyValue at h
  generalize trim value = text at h ⊢
  dsimp only at h
  split at h
  · cases h
  split at h
  · cases h
  · exact (Except.ok.inj h).symm

theorem preparedHash {r : Request} {key hash : String} (h : prepared sha r = .ok (key,hash)) :
    hash = requestFingerprint sha r := by
  obtain ⟨keyHeader,_,h⟩ := AccpEnvelope.exceptBind h
  split at h
  · contradiction
  obtain ⟨key,_,h⟩ := AccpEnvelope.exceptBind h
  obtain ⟨normalized,hashing,h⟩ := AccpEnvelope.exceptBind h
  obtain ⟨_,rfl⟩ := Prod.mk.inj (Except.ok.inj h)
  exact (normalizeSource hashing).trans (digestKept sha _)

def Stored (keys : Keys) (t : Thread) (status : Int) (body : Json) : Prop :=
  ∃ row image, keys.lookup t.key = some row ∧ row.requestHash = t.hash ∧
    row.state = .completed status image ∧ sameText image (stored body) = true

theorem verifiedStored {keys : Keys} {status : Int} {body : Json} {changes : Nat}
    (fine : unverified t.key t.hash status body changes (keys.lookup t.key) = none) :
    Stored keys t status body := by
  cases there : keys.lookup t.key with
  | none =>
    rw [there,unverified] at fine
    exact absurd fine (Option.some_ne_none _)
  | some row =>
    rw [there] at fine
    simp only [unverified] at fine
    split at fine
    · exact absurd fine (Option.some_ne_none _)
    rename_i mine
    split at fine
    · exact absurd fine (Option.some_ne_none _)
    · rename_i status' image completed
      split at fine
      · rename_i same
        exact ⟨row,image,there,not_not.mp mine,by rw [completed,same.1],same.2⟩
      · exact absurd fine (Option.some_ne_none _)

theorem sentSource {d : Draw} {keys : Keys} {status : Int} {body : Json}
    (sent : (t.advance d keys).1.phase = .answered (.sent status body)) :
    (t.advance d keys = (t,keys) ∧ t.phase = .answered (.sent status body)) ∨
      ((t.advance d keys).2 = keys ∧ Stored keys t status body) := by
  unfold Thread.advance at sent ⊢
  cases at_ : t.phase with
  | claiming attempt =>
    rw [at_] at sent
    unfold Thread.claim at sent
    dsimp only at sent
    split at sent
    · contradiction
    split at sent <;> contradiction
  | reading attempt =>
    rw [at_] at sent
    unfold Thread.read at sent
    dsimp only at sent
    split at sent
    · contradiction
    split at sent
    · rename_i row _
      have replied := Phase.answered.inj sent
      cases answer : row.answer t.hash <;> rw [answer] at replied <;> contradiction
    · split at sent <;> contradiction
  | claimed =>
    rw [at_] at sent
    contradiction
  | handling =>
    rw [at_] at sent
    contradiction
  | completing status body =>
    rw [at_] at sent
    unfold Thread.complete at sent
    dsimp only at sent
    split at sent
    · contradiction
    split at sent <;> contradiction
  | verifying status' body' changes =>
    rw [at_] at sent
    unfold Thread.verify at sent
    dsimp only at sent
    split at sent
    · contradiction
    split at sent
    · contradiction
    · rename_i fine
      obtain ⟨rfl,rfl⟩ := Answer.sent.inj (Phase.answered.inj sent)
      exact .inr ⟨rfl,verifiedStored fine⟩
  | answered answer =>
    rw [at_] at sent
    exact .inl ⟨rfl,at_ ▸ sent⟩
  | failed error =>
    rw [at_] at sent
    exact .inl ⟨rfl,at_ ▸ sent⟩
  | crashed =>
    rw [at_] at sent
    exact .inl ⟨rfl,at_ ▸ sent⟩

structure Traced (sha : Sha256) (requests : List Request) (w : World) : Prop where
  threads : ∀ t ∈ w.threads, t.request ∈ requests ∧
    (t.phase.undecided = true → t.hash = requestFingerprint sha t.request)
  rows : ∀ key row, w.keys.lookup key = some row →
    ∃ r ∈ requests, row.requestHash = requestFingerprint sha r
  sent : ∀ t ∈ w.threads, ∀ status body, t.phase = .answered (.sent status body) →
    Stored w.keys t status body

theorem Stored.step {status : Int} {body : Json} (there : Stored w.keys t status body) :
    Stored (IdempotentRequests.step sha w e).keys t status body := by
  obtain ⟨row,image,found,mine,completed,same⟩ := there
  have kept := completedRun sha [e] found completed
  exact ⟨row,image,kept,mine,completed,same⟩

theorem Advances.tracedThread {keys keys' : Keys} (moves : Advances t keys t' keys')
    (hash : t.phase.undecided = true → t.hash = requestFingerprint sha t.request) :
    t'.request = t.request ∧
      (t'.phase.undecided = true → t'.hash = requestFingerprint sha t'.request) := by
  cases moves with
  | claims now undecided free => exact ⟨rfl,fun _ => by contradiction⟩
  | starts claimed => exact ⟨rfl,fun _ => by contradiction⟩
  | completes row status body now phase there mine undecided claimed =>
    exact ⟨rfl,fun decided => by rw [undecided] at decided; contradiction⟩
  | moves phase undecided claimed => exact ⟨rfl,fun decided => hash (undecided decided)⟩

theorem Advances.tracedRow {keys keys' : Keys} {key : String} {row : IdempotencyRow}
    (moves : Advances t keys t' keys') (found : keys'.lookup key = some row) :
    (t.phase.undecided = true ∧ row.requestHash = t.hash) ∨
      ∃ row₀, keys.lookup key = some row₀ ∧ row.requestHash = row₀.requestHash := by
  cases moves with
  | claims now undecided free =>
    by_cases here : key = t.key
    · subst here
      rw [AList.lookup_insert] at found
      cases Option.some.inj found
      exact .inl ⟨undecided,rfl⟩
    · rw [AList.lookup_insert_ne here] at found
      exact .inr ⟨row,found,rfl⟩
  | starts claimed => exact .inr ⟨row,found,rfl⟩
  | completes row₀ status body now phase there mine undecided claimed =>
    by_cases here : key = t.key
    · subst here
      rw [AList.lookup_insert] at found
      cases Option.some.inj found
      exact .inr ⟨row₀,there,rfl⟩
    · rw [AList.lookup_insert_ne here] at found
      exact .inr ⟨row,found,rfl⟩
  | moves phase undecided claimed => exact .inr ⟨row,found,rfl⟩

theorem tracedTurn {requests : List Request} {d : Draw} (traced : Traced sha requests w)
    (at_ : w.threads[i]? = some t) : Traced sha requests (step sha w (.turn i d)) := by
  have listed := List.mem_of_getElem? at_
  obtain ⟨arrived,hash⟩ := traced.threads t listed
  have moves := advances t d w.keys
  have next : step sha w (.turn i d) = {w with
      keys := (t.advance d w.keys).2
      threads := w.threads.set i (t.advance d w.keys).1} := by
    simp only [step,at_]
  constructor
  · intro u member
    rw [next] at member
    rcases List.mem_or_eq_of_mem_set member with old | rfl
    · exact traced.threads u old
    · obtain ⟨same,kept⟩ := moves.tracedThread hash
      exact ⟨same ▸ arrived,kept⟩
  · intro key row found
    rw [next] at found
    rcases moves.tracedRow found with ⟨undecided,mine⟩ | ⟨row₀,there,same⟩
    · exact ⟨t.request,arrived,mine.trans (hash undecided)⟩
    · obtain ⟨r,member,claimed⟩ := traced.rows key row₀ there
      exact ⟨r,member,same.trans claimed⟩
  · intro u member status body sent
    have member' := member
    rw [next] at member'
    rcases List.mem_or_eq_of_mem_set member' with old | rfl
    · exact (traced.sent u old status body sent).step
    · rcases sentSource sent with ⟨same,before⟩ | ⟨same,there⟩
      · rw [same]
        exact (traced.sent t listed status body before).step
      · have kept : (step sha w (.turn i d)).keys = w.keys := by rw [next]; exact same
        rw [kept]
        obtain ⟨row,image,found,mine,completed,text⟩ := there
        exact ⟨row,image,by rwa [moves.identity.1],by rwa [moves.identity.2],completed,text⟩

theorem arrivalTraced (sha : Sha256) (process : Nat) (r : Request) :
    (arrival sha process r).request = r ∧
      ((arrival sha process r).phase.undecided = true →
        (arrival sha process r).hash = requestFingerprint sha r) ∧
      ∀ answer, (arrival sha process r).phase ≠ .answered answer := by
  unfold arrival
  split
  · exact ⟨rfl,fun _ => preparedHash ‹_›,fun _ => by simp⟩
  · exact ⟨rfl,fun _ => by contradiction,fun _ => by simp⟩

theorem tracedStep {requests : List Request} {e : Event} (traced : Traced sha requests w)
    (arrives : ∀ process r, e = .arrive process r → r ∈ requests) :
    Traced sha requests (step sha w e) := by
  have sent {t : Thread} (listed : t ∈ w.threads) (status : Int) (body : Json)
      (sent : t.phase = .answered (.sent status body)) :
      Stored (step sha w e).keys t status body := (traced.sent t listed status body sent).step
  cases e with
  | arrive process r =>
    obtain ⟨same,hash,fresh⟩ := arrivalTraced sha process r
    refine ⟨fun t listed => ?_,traced.rows,fun t listed status body answered => ?_⟩
    · rcases List.mem_append.mp listed with old | new
      · exact traced.threads t old
      · rw [List.mem_singleton.mp new]
        exact ⟨by rw [same]; exact arrives process r rfl,
          fun undecided => by rw [same]; exact hash undecided⟩
    · rcases List.mem_append.mp listed with old | new
      · exact sent old status body answered
      · rw [List.mem_singleton.mp new] at answered
        exact absurd answered (fresh _)
  | turn i d =>
    cases at_ : w.threads[i]? with
    | none =>
      have same : step sha w (.turn i d) = w := by simp only [step,at_]
      rwa [same]
    | some t => exact tracedTurn traced at_
  | crash process =>
    refine ⟨fun t listed => ?_,traced.rows,fun t listed status body answered => ?_⟩
    · obtain ⟨t₀,old,rfl⟩ := List.mem_map.mp listed
      rcases crashSource process t₀ with same | crashed
      · rw [same]
        exact traced.threads t₀ old
      · rw [crashed]
        exact ⟨(traced.threads t₀ old).1,fun _ => by contradiction⟩
    · obtain ⟨t₀,old,rfl⟩ := List.mem_map.mp listed
      rcases crashSource process t₀ with same | crashed
      · rw [same] at answered ⊢
        exact sent old status body answered
      · rw [crashed] at answered
        contradiction
  | release key hash =>
    have kept : (step sha w (.release key hash)).threads = w.threads := by
      unfold step
      dsimp only
      rcases releaseSource w key hash with same | ⟨_,_,_,_,_,_,_,same⟩ <;> rw [same]
    refine ⟨fun t listed => traced.threads t (kept ▸ listed),fun k row found => ?_,
      fun t listed => sent (kept ▸ listed)⟩
    unfold step at found
    dsimp only at found
    rcases releaseSource w key hash with same | ⟨name,wanted,row₀,_,_,_,_,same⟩
    · rw [same] at found
      exact traced.rows k row found
    · rw [same] at found
      by_cases here : k = name
      · subst here
        rw [AList.lookup_erase] at found
        contradiction
      · rw [AList.lookup_erase_ne here] at found
        exact traced.rows k row found

def requestsOf (events : List Event) : List Request := events.filterMap fun
  | .arrive _ r => some r
  | _ => none

def after (sha : Sha256) (events : List Event) : World := reach (step sha) .initial events

theorem tracedRun (sha : Sha256) (events : List Event) {requests : List Request}
    (arrived : requestsOf events ⊆ requests) : Traced sha requests (after sha events) := by
  induction events using List.reverseRecOn with
  | nil =>
    exact ⟨fun _ listed => by contradiction,fun _ _ found => by contradiction,
      fun _ listed => by contradiction⟩
  | append_singleton front e ih =>
    unfold after at ih ⊢
    rw [reachLast]
    unfold requestsOf at arrived ih
    rw [List.filterMap_append] at arrived
    refine tracedStep (ih fun r listed => arrived (List.mem_append_left _ listed)) ?_
    rintro process r rfl
    exact arrived (List.mem_append_right _ (by simp))

def CollisionFree (sha : Sha256) (requests : List Request) : Prop := ∀ r ∈ requests,
  ∀ r' ∈ requests, requestFingerprint sha r = requestFingerprint sha r' → hashed r = hashed r'

-- The handler of a key is started at most once, and once more for each release of its claim.
-- A different request is refused, an identical one is answered from the completed row; either
-- never starts its handler. Only a release of a pending claim's own hash removes a row.
structure AtMostOnce (sha : Sha256) (events : List Event) : Prop where
  once : ∀ front back key, events = front ++ back →
    (after sha front).starts key ≤ (after sha front).releases.count key + 1
  claimed : ∀ front back key row, events = front ++ back →
    (after sha front).keys.lookup key = some row →
    ∃ r ∈ requestsOf front, row.requestHash = requestFingerprint sha r
  refused : ∀ front back i t row r, events = front ++ back →
    (after sha front).threads[i]? = some t → t.phase.undecided = true →
    (after sha front).keys.lookup t.key = some row → r ∈ requestsOf front →
    row.requestHash = requestFingerprint sha r → ¬SameRequest t.request r →
    (∀ e ∈ back, ¬e.releases t.key row.requestHash) →
    ∃ t', (after sha events).threads[i]? = some t' ∧ Served i .conflict t back t'
  kept : ∀ front back key row status body, events = front ++ back →
    (after sha front).keys.lookup key = some row → row.state = .completed status body →
    (after sha events).keys.lookup key = some row
  replayed : ∀ front back i t row r status body, events = front ++ back →
    (after sha front).threads[i]? = some t → t.phase.undecided = true →
    (after sha front).keys.lookup t.key = some row → row.state = .completed status body →
    row.requestHash = requestFingerprint sha r → SameRequest t.request r →
    ∃ t', (after sha events).threads[i]? = some t' ∧ Served i (.replayed status body) t back t'
  sent : ∀ front back t status body, events = front ++ back → t ∈ (after sha front).threads →
    t.phase = .answered (.sent status body) → Stored (after sha front).keys t status body
  released : ∀ front e back key row, events = front ++ e::back →
    (after sha front).keys.lookup key = some row →
    (after sha (front ++ [e])).keys.lookup key = none →
    e.releases key row.requestHash ∧ row.state = .pending

theorem countedAfter (sha : Sha256) (events : List Event) : Counted (after sha events) :=
  reachKept (step sha) (countedStep sha)
    ⟨fun _ listed => by contradiction,fun _ => rfl⟩ events

theorem startsBound (counted : Counted w) (key : String) :
    w.starts key ≤ w.releases.count key + 1 := by
  have claims : w.starts key ≤ w.threads.countP (claimedFor key) := by
    apply List.countP_mono_left
    intro t listed started
    simp only [startedFor,claimedFor,Bool.and_eq_true] at started ⊢
    exact ⟨started.1,(counted.honest t listed).started started.2⟩
  have rows := counted.claims key
  split at rows <;> omega

theorem unstartedHere (counted : Counted w) (at_ : w.threads[i]? = some t)
    (undecided : t.phase.undecided = true) : t.started = false :=
  (counted.honest t (List.mem_of_getElem? at_)).unstarted undecided

def createRequest : Request where
  method := "POST"
  url := "/v1/tasks"
  body := "\x7b\"goal\":\"Fix the parser\"\x7d"
  keyHeader := some "create-1"
  methodPlain := by decide
  urlPlain := by decide

def otherRequest : Request where
  method := "POST"
  url := "/v1/tasks"
  body := "\x7b\"goal\":\"Drop the parser\"\x7d"
  keyHeader := some "create-1"
  methodPlain := by decide
  urlPlain := by decide

def knownDigest (text : String) : String :=
  if text = hashed createRequest then
    "337c5ead1e09a81b2ac6a2c2db42b3e93e83c0ffff8a53b05993dd03329f8422"
  else if text = hashed otherRequest then
    "80199611dae4a6f7fd75ff1c91361181e7ed8bf13db30884902fc557a71c92a6"
  else String.ofList (List.replicate 64 '0')

def knownSha : Sha256 where
  digest := knownDigest
  hex text := by
    unfold knownDigest
    split
    · decide +kernel
    split <;> decide +kernel

def drawn : Draw := ⟨1000,none,.returned 201 (.object [("id",.string "task_1")])⟩

def contested : List Event :=
  [.arrive 1 createRequest,.arrive 2 createRequest,.turn 0 drawn,.turn 1 drawn,.turn 1 drawn,
   .turn 0 drawn,.turn 0 drawn,.turn 0 drawn,.turn 0 drawn,.crash 1,
   .arrive 2 createRequest,.arrive 2 otherRequest,.turn 2 drawn,.turn 2 drawn,.turn 3 drawn,
   .turn 3 drawn]

end ControlCenter.IdempotentRequests
