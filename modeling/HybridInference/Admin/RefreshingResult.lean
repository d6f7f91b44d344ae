import HybridInference.Library.ListUpdate
import HybridInference.Library.Machine
import Mathlib.Algebra.Order.Ring.Rat

/-!
# Results refreshed in the background

`RefreshingResult` of `serving.servers.routers.admin._refreshing_cache`, for one
key on one event loop, with a `ResultStore`. A delete advances the generation of
the store; a write stores a value only while its generation is current.

Every event is a block of the source with no `await` in it, an answer of the
store, or a delete. The store answers a call at one moment and the caller
resumes at a later one. Times are read from the clock of the event.

A value carries the generation its computation read before it loaded, and a
request the generation it read; both only say what happened.
-/

namespace HybridInference.Admin

open Library

def maxAttempts : ℕ := 3

structure RefreshSettings where
  freshSeconds : ℚ
  retrySeconds : ℚ

/-- An exception, with what `_describe` reads of it. -/
structure Failure where
  text : String
  typeName : String
  deriving DecidableEq

def Failure.describe (failure : Failure) : String :=
  if failure.text = "" then failure.typeName else failure.text

def superseded : Failure := ⟨"superseded by deletes 3 times", "_Superseded"⟩

structure Computed (T : Type) where
  payload : T
  under : ℕ
  deriving DecidableEq

structure StoredResult (T : Type) where
  value : Computed T
  computedAt : ℚ
  generation : ℕ
  deriving DecidableEq

structure ResultStore (T : Type) where
  current : ℕ := 0
  stored : Option (StoredResult T) := none
  deriving DecidableEq

inductive Reply (Answer : Type) where
  | pending
  | failed (failure : Failure)
  | answered (answer : Answer)
  deriving DecidableEq

/-- Where `_run` is, with the attempts it has left after this one. -/
inductive Computation (T : Type) where
  | readingGeneration (attempts : ℕ) (reply : Reply ℕ)
  | loading (attempts generation : ℕ)
  | writing (attempts : ℕ) (result : StoredResult T) (reply : Reply Bool)
  | rereading (attempts : ℕ) (result : StoredResult T) (reply : Reply ℕ)
  | finished (value : Computed T)
  | failed (failure : Failure)
  deriving DecidableEq

def Computation.done {T : Type} : Computation T → Bool
  | .finished _ | .failed _ => true
  | _ => false

def Computation.result {T : Type} : Computation T → Option (StoredResult T)
  | .writing _ result _ | .rereading _ result _ => some result
  | _ => none

/-- `_State`. -/
structure ResultState (T : Type) where
  value : Option (Computed T) := none
  computedAt : ℚ := 0
  generation : ℕ := 0
  seen : ℕ := 0
  restored : Bool := false
  task : Option ℕ := none
  error : Option Failure := none
  failedAt : ℚ := 0
  deriving DecidableEq

structure Served (T : Type) where
  value : Option (Computed T)
  refreshing : Bool
  refreshError : Option String
  deriving DecidableEq

inductive RequestKind where
  | get (refresh : Bool)
  | warm
  deriving DecidableEq

/-- Where a request is; `_wait_for_first` has attempts left after this one. -/
inductive RequestStage (T : Type) where
  | checking (reply : Reply ℕ)
  | restoring (reply : Reply (Option (StoredResult T)))
  | waiting (task attempts : ℕ)
  | warming (task : ℕ)
  | served (answer : Served T)
  | raised (failure : Failure)
  | gone
  deriving DecidableEq

structure Request (T : Type) where
  kind : RequestKind
  stage : RequestStage T
  read : Option ℕ := none
  deriving DecidableEq

structure Cache (T : Type) where
  state : ResultState T := {}
  tasks : List (Computation T) := []
  deriving DecidableEq

namespace Cache

variable {T : Type}

def running (cache : Cache T) : Bool :=
  match cache.state.task with
  | some task => (cache.tasks[task]?).any fun computation => !computation.done
  | none => false

def dropIfSuperseded (cache : Cache T) : Cache T :=
  if cache.state.value.isSome && cache.state.generation < cache.state.seen then
    { cache with
      state := { cache.state with value := none, computedAt := 0, restored := false } }
  else cache

def stale (settings : RefreshSettings) (now : ℚ) (cache : Cache T) : Bool :=
  settings.freshSeconds ≤ now - cache.state.computedAt

def recentlyFailed (settings : RefreshSettings) (now : ℚ) (cache : Cache T) : Bool :=
  cache.state.error.isSome && now - cache.state.failedAt < settings.retrySeconds

/-- `_start`: the computation that runs, or a new one. -/
def start (cache : Cache T) : Cache T × ℕ :=
  match cache.running, cache.state.task with
  | true, some task => (cache, task)
  | _, _ =>
    ({ state := { cache.state with task := some cache.tasks.length }
       tasks := cache.tasks ++ [.readingGeneration (maxAttempts - 1) .pending] },
      cache.tasks.length)

/-- `_served`. -/
def serve (cache : Cache T) : Cache T × RequestStage T :=
  let kept := cache.dropIfSuperseded
  (kept, .served
    { value := kept.state.value
      refreshing := kept.running
      refreshError := kept.state.error.map Failure.describe })

/-- One turn of the loop of `_wait_for_first`, up to its `await`. -/
def waitForFirst (cache : Cache T) (attempts : ℕ) : Cache T × RequestStage T :=
  (cache.start.1, .waiting cache.start.2 attempts)

/-- `get` and `warm` after `_check`. -/
def afterCheck (settings : RefreshSettings) (now : ℚ) (cache : Cache T) :
    RequestKind → Cache T × RequestStage T
  | .get refresh =>
    let kept := cache.dropIfSuperseded
    if kept.state.value.isNone then
      match kept.state.error with
      | some failure =>
        if !refresh && kept.recentlyFailed settings now && !kept.running then
          (kept, .raised failure)
        else kept.waitForFirst (maxAttempts - 1)
      | none => kept.waitForFirst (maxAttempts - 1)
    else if refresh || (kept.stale settings now && !kept.recentlyFailed settings now) then
      kept.start.1.serve
    else kept.serve
  | .warm =>
    if cache.state.value.isNone || cache.stale settings now then
      (cache.start.1, .warming cache.start.2)
    else (cache, .gone)

/-- `_check` once the generation is known: what is outdated goes, and without a
value the stored one is read. -/
def learn (settings : RefreshSettings) (now : ℚ) (cache : Cache T) (kind : RequestKind)
    (current : ℕ) : Cache T × RequestStage T :=
  let kept :=
    { cache with
      state := { cache.state with seen := max cache.state.seen current } }.dropIfSuperseded
  if kept.state.restored || kept.state.value.isSome then kept.afterCheck settings now kind
  else ({ kept with state := { kept.state with restored := true } }, .restoring .pending)

def adopts (cache : Cache T) (result : StoredResult T) : Bool :=
  cache.state.value.isNone && cache.state.seen ≤ result.generation

def adopt (cache : Cache T) (result : StoredResult T) : Cache T :=
  if cache.adopts result then
    { cache with
      state :=
        { cache.state with
          value := some result.value
          computedAt := result.computedAt
          generation := result.generation } }
  else cache

/-- A request goes on after its `await`, if that is over. -/
def resume (settings : RefreshSettings) (now : ℚ) (cache : Cache T) (request : Request T) :
    Option (Cache T × Request T) :=
  let goesOn (next : Cache T × RequestStage T) : Option (Cache T × Request T) :=
    some (next.1, { request with stage := next.2 })
  match request.stage with
  | .checking (.answered current) =>
    let next := cache.learn settings now request.kind current
    some (next.1, { request with stage := next.2, read := some current })
  | .checking (.failed _) => goesOn (cache.afterCheck settings now request.kind)
  | .restoring (.answered (some result)) =>
    goesOn ((cache.adopt result).afterCheck settings now request.kind)
  | .restoring (.answered none) | .restoring (.failed _) =>
    goesOn (cache.afterCheck settings now request.kind)
  | .waiting task attempts =>
    match cache.tasks[task]? with
    | some (.failed failure) => goesOn (cache, .raised failure)
    | some (.finished _) =>
      let kept := cache.dropIfSuperseded
      if kept.state.value.isSome || attempts = 0 then goesOn kept.serve
      else goesOn (kept.waitForFirst (attempts - 1))
    | _ => none
  | .warming task =>
    match cache.tasks[task]? with
    | some (.failed _) | some (.finished _) => goesOn (cache, .gone)
    | _ => none
  | _ => none

def withTask (cache : Cache T) (task : ℕ) (computation : Computation T) : Cache T :=
  { cache with tasks := cache.tasks.set task computation }

def publish (cache : Cache T) (task : ℕ) (result : StoredResult T) : Cache T :=
  let kept :=
    if cache.state.seen ≤ result.generation ∧
        (cache.state.value.isNone ∨ cache.state.generation ≤ result.generation) then
      { cache.state with
        value := some result.value
        generation := result.generation
        computedAt := result.computedAt }
    else cache.state
  { cache with state := { kept with error := none } }.withTask task (.finished result.value)

def fail (cache : Cache T) (task : ℕ) (failure : Failure) (now : ℚ) : Cache T :=
  { cache with
    state := { cache.state with error := some failure, failedAt := now } }.withTask task
      (.failed failure)

def again (cache : Cache T) (task attempts : ℕ) (now : ℚ) : Cache T :=
  if attempts = 0 then cache.fail task superseded now
  else cache.withTask task (.readingGeneration (attempts - 1) .pending)

/-- The computation goes on after its `await`, if that is over. -/
def resumeTask (cache : Cache T) (task : ℕ) (now : ℚ) : Computation T → Option (Cache T)
  | .readingGeneration attempts (.answered generation) =>
    some (cache.withTask task (.loading attempts generation))
  | .readingGeneration _ (.failed failure) => some (cache.fail task failure now)
  | .writing _ result (.answered true) => some (cache.publish task result)
  | .writing attempts _ (.answered false) => some (cache.again task attempts now)
  | .writing attempts result (.failed _) =>
    some (cache.withTask task (.rereading attempts result .pending))
  | .rereading attempts result (.answered generation) =>
    if generation = result.generation then some (cache.publish task result)
    else some (cache.again task attempts now)
  | .rereading _ _ (.failed failure) => some (cache.fail task failure now)
  | _ => none

end Cache

structure RefreshWorld (T : Type) where
  store : ResultStore T := {}
  cache : Cache T := {}
  requests : List (Request T) := []
  deriving DecidableEq

inductive RefreshEvent (T : Type) where
  | delete (more : ℕ)
  | begin (kind : RequestKind)
  | answer (id : ℕ)
  | refuse (id : ℕ) (failure : Failure)
  | resume (id : ℕ) (now : ℚ)
  | timeout (id : ℕ)
  | cancel (id : ℕ)
  | answerTask (task : ℕ)
  | refuseTask (task : ℕ) (failure : Failure) (stored : Bool)
  | load (task : ℕ) (payload : T) (now : ℚ)
  | failLoad (task : ℕ) (failure : Failure) (now : ℚ)
  | resumeTask (task : ℕ) (now : ℚ)

namespace RefreshWorld

variable {T : Type}

def withRequest (world : RefreshWorld T) (id : ℕ) (request : Request T) : RefreshWorld T :=
  { world with requests := world.requests.set id request }

def withTask (world : RefreshWorld T) (task : ℕ) (computation : Computation T) :
    RefreshWorld T :=
  { world with cache := world.cache.withTask task computation }

/-- `write` stores a result whose generation is current. -/
def write (store : ResultStore T) (result : StoredResult T) : ResultStore T × Bool :=
  if result.generation = store.current then ({ store with stored := some result }, true)
  else (store, false)

def step (settings : RefreshSettings) (world : RefreshWorld T) :
    RefreshEvent T → Option (RefreshWorld T)
  | .delete more =>
    some { world with store := { world.store with current := world.store.current + more + 1 } }
  | .begin kind =>
    some { world with requests := world.requests ++ [{ kind, stage := .checking .pending }] }
  | .answer id =>
    match world.requests[id]? with
    | some request =>
      match request.stage with
      | .checking .pending =>
        some (world.withRequest id
          { request with stage := .checking (.answered world.store.current) })
      | .restoring .pending =>
        some (world.withRequest id
          { request with stage := .restoring (.answered world.store.stored) })
      | _ => none
    | none => none
  | .refuse id failure =>
    match world.requests[id]? with
    | some request =>
      match request.stage with
      | .checking .pending =>
        some (world.withRequest id { request with stage := .checking (.failed failure) })
      | .restoring .pending =>
        some (world.withRequest id { request with stage := .restoring (.failed failure) })
      | _ => none
    | none => none
  | .resume id now =>
    match world.requests[id]? with
    | some request =>
      (world.cache.resume settings now request).map fun next =>
        { world.withRequest id next.2 with cache := next.1 }
    | none => none
  | .timeout id =>
    match world.requests[id]? with
    | some request =>
      match request.stage with
      | .waiting task _ =>
        if (world.cache.tasks[task]?).any Computation.done then none
        else
          some { world.withRequest id { request with stage := world.cache.serve.2 } with
            cache := world.cache.serve.1 }
      | _ => none
    | none => none
  | .cancel id =>
    match world.requests[id]? with
    | some request =>
      match request.stage with
      | .served _ | .raised _ | .gone => none
      | _ => some (world.withRequest id { request with stage := .gone })
    | none => none
  | .answerTask task =>
    match world.cache.tasks[task]? with
    | some (.readingGeneration attempts .pending) =>
      some (world.withTask task (.readingGeneration attempts (.answered world.store.current)))
    | some (.writing attempts result .pending) =>
      let written := write world.store result
      some { world.withTask task (.writing attempts result (.answered written.2)) with
        store := written.1 }
    | some (.rereading attempts result .pending) =>
      some (world.withTask task (.rereading attempts result (.answered world.store.current)))
    | _ => none
  | .refuseTask task failure stored =>
    match world.cache.tasks[task]? with
    | some (.readingGeneration attempts .pending) =>
      some (world.withTask task (.readingGeneration attempts (.failed failure)))
    | some (.writing attempts result .pending) =>
      some { world.withTask task (.writing attempts result (.failed failure)) with
        store := if stored then (write world.store result).1 else world.store }
    | some (.rereading attempts result .pending) =>
      some (world.withTask task (.rereading attempts result (.failed failure)))
    | _ => none
  | .load task payload now =>
    match world.cache.tasks[task]? with
    | some (.loading attempts generation) =>
      some (world.withTask task
        (.writing attempts ⟨⟨payload, generation⟩, now, generation⟩ .pending))
    | _ => none
  | .failLoad task failure now =>
    match world.cache.tasks[task]? with
    | some (.loading _ _) =>
      some { world with cache := world.cache.fail task failure now }
    | _ => none
  | .resumeTask task now =>
    match world.cache.tasks[task]? with
    | some computation =>
      (world.cache.resumeTask task now computation).map fun cache =>
        { world with cache := cache }
    | none => none

end RefreshWorld

def refreshMachine (T : Type) (settings : RefreshSettings) :
    Machine (RefreshWorld T) (RefreshEvent T) where
  step := RefreshWorld.step settings

namespace Cache

variable {T : Type}

def Labelled (current : ℕ) : Computation T → Prop
  | .readingGeneration _ (.answered generation) => generation ≤ current
  | .loading _ generation => generation ≤ current
  | .writing _ result _ => result.value.under = result.generation ∧ result.generation ≤ current
  | .rereading _ result _ => result.value.under = result.generation ∧ result.generation ≤ current
  | _ => True

/-- The value in memory has the generation it was computed under, and only the
computation of the state runs. -/
structure Sound (current : ℕ) (cache : Cache T) : Prop where
  memory : ∀ value, cache.state.value = some value → value.under = cache.state.generation
  labelled : ∀ (task : ℕ) computation, cache.tasks[task]? = some computation →
    Labelled current computation
  single : ∀ (task : ℕ) computation, cache.tasks[task]? = some computation →
    computation.done = false → cache.state.task = some task
  started : ∀ task, cache.state.task = some task → task < cache.tasks.length

/-- What a request may do to the cache: drop the value, see a newer generation
and start a computation. -/
structure Keeps (before after : Cache T) : Prop where
  value : after.state.value = before.state.value ∨ after.state.value = none
  seen : before.state.seen ≤ after.state.seen
  failed : ∀ (task : ℕ) failure, after.tasks[task]? = some (.failed failure) →
    before.tasks[task]? = some (.failed failure)

/-- What a request leaves the cache with: an answer no older than what was seen,
an error without a value in memory, or a computation that has not failed. -/
structure Answers (cache : Cache T) (stage : RequestStage T) : Prop where
  served : ∀ answer, stage = .served answer → answer.value = cache.state.value ∧
    answer.refreshError = cache.state.error.map Failure.describe ∧
    ∀ value, answer.value = some value → cache.state.seen ≤ value.under
  raised : ∀ failure, stage = .raised failure → cache.state.value = none
  waiting : ∀ task attempts, stage = .waiting task attempts →
    ∀ failure, cache.tasks[task]? ≠ some (.failed failure)
  restoring : ∀ reply, stage = .restoring reply → reply = .pending

variable {cache before middle after : Cache T} {current : ℕ}

theorem Keeps.refl (cache : Cache T) : Keeps cache cache :=
  ⟨Or.inl rfl, le_rfl, fun _ _ found => found⟩

theorem Keeps.trans (first : Keeps before middle) (second : Keeps middle after) :
    Keeps before after where
  value := by
    rcases second.value with same | none
    · rw [same]
      exact first.value
    · exact Or.inr none
  seen := first.seen.trans second.seen
  failed := fun task failure found => first.failed task failure (second.failed task failure found)

theorem dropIfSuperseded_cases (cache : Cache T) : cache.dropIfSuperseded = cache ∧
        (cache.state.value = none ∨ cache.state.seen ≤ cache.state.generation) ∨
      cache.dropIfSuperseded =
        { cache with
          state := { cache.state with value := none, computedAt := 0, restored := false } } := by
  unfold dropIfSuperseded
  split_ifs with outdated
  · exact Or.inr rfl
  · left
    refine ⟨rfl, ?_⟩
    simp only [Bool.and_eq_true, decide_eq_true_eq, not_and, not_lt] at outdated
    cases value : cache.state.value with
    | none => exact Or.inl rfl
    | some _ =>
      right
      apply outdated
      simp [value]

theorem Sound.drop (sound : cache.Sound current) : cache.dropIfSuperseded.Sound current := by
  rcases dropIfSuperseded_cases cache with ⟨same, -⟩ | dropped
  · rw [same]
    exact sound
  · rw [dropped]
    exact ⟨by simp, sound.labelled, sound.single, sound.started⟩

theorem keeps_drop (cache : Cache T) : Keeps cache cache.dropIfSuperseded := by
  rcases dropIfSuperseded_cases cache with ⟨same, -⟩ | dropped
  · rw [same]
    exact Keeps.refl cache
  · rw [dropped]
    exact ⟨Or.inr rfl, le_rfl, fun _ _ found => found⟩

theorem start_cases (cache : Cache T) :
    (∃ task, cache.running = true ∧ cache.state.task = some task ∧ cache.start = (cache, task)) ∨
      cache.running = false ∧ cache.start =
        ({ state := { cache.state with task := some cache.tasks.length }
           tasks := cache.tasks ++ [.readingGeneration (maxAttempts - 1) .pending] },
          cache.tasks.length) := by
  unfold start
  cases running : cache.running with
  | false => exact Or.inr ⟨rfl, rfl⟩
  | true =>
    cases only : cache.state.task with
    | none => simp [Cache.running, only] at running
    | some task => exact Or.inl ⟨task, rfl, rfl, rfl⟩

variable {task : ℕ}

theorem Sound.done_of_idle (sound : cache.Sound current) (idle : cache.running = false)
    {computation : Computation T} (found : cache.tasks[task]? = some computation) :
    computation.done = true := by
  by_contra alive
  have goesOn : computation.done = false := by simpa using alive
  have only := sound.single task computation found goesOn
  simp [running, only, found, goesOn] at idle

theorem Sound.start (sound : cache.Sound current) : cache.start.1.Sound current := by
  rcases start_cases cache with ⟨task, -, -, same⟩ | ⟨idle, fresh⟩
  · rw [same]
    exact sound
  · rw [fresh]
    refine ⟨sound.memory, ?_, ?_, by simp⟩
    · intro task computation found
      rcases getElem?_concat_cases found with earlier | ⟨-, rfl⟩
      · exact sound.labelled task computation earlier
      · trivial
    · intro task computation found goesOn
      rcases getElem?_concat_cases found with earlier | ⟨rfl, -⟩
      · rw [sound.done_of_idle idle earlier] at goesOn
        simp at goesOn
      · rfl

theorem keeps_start (cache : Cache T) : Keeps cache cache.start.1 := by
  rcases start_cases cache with ⟨task, -, -, same⟩ | ⟨-, fresh⟩
  · rw [same]
    exact Keeps.refl cache
  · rw [fresh]
    refine ⟨Or.inl rfl, le_rfl, ?_⟩
    intro task failure found
    rcases getElem?_concat_cases found with earlier | ⟨-, impossible⟩
    · exact earlier
    · simp at impossible

theorem start_not_failed (cache : Cache T) (failure : Failure) :
    cache.start.1.tasks[cache.start.2]? ≠ some (.failed failure) := by
  rcases start_cases cache with ⟨task, running, only, same⟩ | ⟨-, fresh⟩
  · rw [same]
    intro found
    simp [Cache.running, only, found, Computation.done] at running
  · rw [fresh]
    simp

theorem answers_serve (sound : cache.Sound current) : Answers cache.serve.1 cache.serve.2 := by
  refine ⟨?_, by simp [serve], by simp [serve], by simp [serve]⟩
  intro answer same
  cases same
  refine ⟨rfl, rfl, ?_⟩
  intro value kept
  have kept : cache.dropIfSuperseded.state.value = some value := kept
  change cache.dropIfSuperseded.state.seen ≤ value.under
  rcases dropIfSuperseded_cases cache with ⟨same, fresh⟩ | dropped
  · rw [same] at kept ⊢
    rw [sound.memory value kept]
    rcases fresh with none | fresh
    · rw [kept] at none
      simp at none
    · exact fresh
  · rw [dropped] at kept
    simp at kept

theorem answers_waitForFirst (attempts : ℕ) :
    Answers (cache.waitForFirst attempts).1 (cache.waitForFirst attempts).2 := by
  refine ⟨by simp [waitForFirst], by simp [waitForFirst], ?_, by simp [waitForFirst]⟩
  intro task left same failure
  simp only [waitForFirst, RequestStage.waiting.injEq] at same ⊢
  rw [← same.1]
  exact start_not_failed cache failure

/-- A step of a request keeps the cache sound, does no more than a request may,
and ends in an answer that fits. -/
structure Proper (current : ℕ) (before : Cache T) (next : Cache T × RequestStage T) : Prop where
  sound : next.1.Sound current
  keeps : Keeps before next.1
  answers : Answers next.1 next.2

theorem Proper.of_keeps {next : Cache T × RequestStage T} (first : Keeps before middle)
    (proper : Proper current middle next) : Proper current before next :=
  ⟨proper.sound, first.trans proper.keeps, proper.answers⟩

section

variable (sound : cache.Sound current)

include sound

theorem proper_serve : Proper current cache cache.serve :=
  ⟨sound.drop, keeps_drop cache, answers_serve sound⟩

theorem proper_waitForFirst (attempts : ℕ) : Proper current cache (cache.waitForFirst attempts) :=
  ⟨sound.start, keeps_start cache, answers_waitForFirst attempts⟩

theorem proper_afterCheck (settings : RefreshSettings) (now : ℚ)
    (kind : RequestKind) : Proper current cache (cache.afterCheck settings now kind) := by
  cases kind with
  | get refresh =>
    apply Proper.of_keeps (keeps_drop cache)
    have kept := sound.drop
    unfold afterCheck
    dsimp only
    by_cases empty : cache.dropIfSuperseded.state.value.isNone = true
    · rw [if_pos empty]
      split
      · split
        · refine ⟨kept, Keeps.refl _, by simp, ?_, by simp, by simp⟩
          intro _ _
          simpa using empty
        · exact proper_waitForFirst kept _
      · exact proper_waitForFirst kept _
    · rw [if_neg empty]
      split
      · exact (proper_serve kept.start).of_keeps (keeps_start _)
      · exact proper_serve kept
  | warm =>
    unfold afterCheck
    split_ifs
    · exact ⟨sound.start, keeps_start cache, by simp, by simp, by simp, by simp⟩
    · exact ⟨sound, Keeps.refl cache, by simp, by simp, by simp, by simp⟩

theorem Sound.see (generation : ℕ) : Sound current
      { cache with state := { cache.state with seen := max cache.state.seen generation } } :=
  { sound with }

theorem proper_learn (settings : RefreshSettings) (now : ℚ)
    (kind : RequestKind) (generation : ℕ) :
    Proper current cache (cache.learn settings now kind generation) ∧
      generation ≤ (cache.learn settings now kind generation).1.state.seen := by
  have sees : Keeps cache
      { cache with state := { cache.state with seen := max cache.state.seen generation } } :=
    ⟨Or.inl rfl, le_max_left _ _, fun _ _ found => found⟩
  have kept := (sound.see generation).drop
  have dropped := keeps_drop
    { cache with state := { cache.state with seen := max cache.state.seen generation } }
  have seen := dropped.seen
  unfold learn
  dsimp only at seen ⊢
  split_ifs
  · have proper := proper_afterCheck kept settings now kind
    refine ⟨(proper.of_keeps dropped).of_keeps sees, ?_⟩
    exact (le_max_right _ _).trans (seen.trans proper.keeps.seen)
  · refine ⟨⟨{ kept with }, sees.trans (dropped.trans ?_), by simp, by simp, by simp, by simp⟩, ?_⟩
    · exact ⟨Or.inl rfl, le_rfl, fun _ _ found => found⟩
    · exact (le_max_right _ _).trans seen

end

variable {result : StoredResult T}

theorem Sound.adopt (sound : cache.Sound current)
    (labelled : result.value.under = result.generation) : (cache.adopt result).Sound current := by
  unfold Cache.adopt
  split_ifs
  · refine ⟨?_, sound.labelled, sound.single, sound.started⟩
    intro value same
    cases same
    exact labelled
  · exact sound

theorem adopt_of_not (kept : cache.adopts result = false) : cache.adopt result = cache := by
  simp [Cache.adopt, kept]

theorem Sound.withTask (sound : cache.Sound current) {old new : Computation T}
    (found : cache.tasks[task]? = some old) (alive : old.done = false)
    (labelled : Labelled current new) : (cache.withTask task new).Sound current where
  memory := sound.memory
  labelled := by
    intro other computation there
    simp only [Cache.withTask, getElem?_set_of_some found] at there
    split_ifs at there
    · cases there
      exact labelled
    · exact sound.labelled other computation there
  single := by
    intro other computation there goesOn
    simp only [Cache.withTask, getElem?_set_of_some found] at there ⊢
    split_ifs at there with same
    · rw [← same]
      exact sound.single task old found alive
    · exact sound.single other computation there goesOn
  started := by
    intro other only
    simpa [Cache.withTask] using sound.started other only

theorem Sound.grow (sound : cache.Sound current) {more : ℕ} (grows : current ≤ more) :
    cache.Sound more where
  memory := sound.memory
  labelled := by
    intro task computation found
    have labelled := sound.labelled task computation found
    cases computation with
    | readingGeneration attempts reply =>
      cases reply with
      | answered generation => exact le_trans labelled grows
      | pending => trivial
      | failed failure => trivial
    | loading attempts generation => exact le_trans labelled grows
    | writing attempts result reply | rereading attempts result reply =>
      exact ⟨labelled.1, labelled.2.trans grows⟩
    | finished value => trivial
    | failed failure => trivial
  single := sound.single
  started := sound.started

variable {old : Computation T}

section

variable (sound : cache.Sound current) (found : cache.tasks[task]? = some old)
  (alive : old.done = false)

include sound found alive

theorem Sound.fail (failure : Failure) (now : ℚ) : (cache.fail task failure now).Sound current := by
  have marked : Sound current
      { cache with state := { cache.state with error := some failure, failedAt := now } } :=
    { sound with }
  refine marked.withTask found alive ?_
  trivial

theorem Sound.publish (labelled : result.value.under = result.generation) :
    (cache.publish task result).Sound current := by
  have cleared : Sound current { cache with state := { cache.state with error := none } } :=
    { sound with }
  have replaced : Sound current
      { cache with
        state :=
          { cache.state with
            value := some result.value
            generation := result.generation
            computedAt := result.computedAt
            error := none } } := by
    refine ⟨?_, sound.labelled, sound.single, sound.started⟩
    intro value same
    cases same
    exact labelled
  unfold Cache.publish
  split_ifs
  · refine replaced.withTask found alive ?_
    trivial
  · refine cleared.withTask found alive ?_
    trivial

end

def endsInError : Computation T → Bool
  | .readingGeneration _ (.failed _) => true
  | .writing attempts _ (.answered false) => attempts = 0
  | .rereading attempts result (.answered generation) =>
    generation ≠ result.generation && attempts = 0
  | .rereading _ _ (.failed _) => true
  | _ => false

def publishes : Computation T → Bool
  | .writing _ _ (.answered accepted) => accepted
  | .rereading _ result (.answered generation) => generation = result.generation
  | _ => false

theorem done_of_resumeTask {now : ℚ} (resumed : cache.resumeTask task now old = some after) :
    old.done = false := by
  cases old <;> first | rfl | cases resumed

/-- What a computation does when it goes on: it fails, publishes its result or moves on. -/
theorem resumeTask_cases {now : ℚ} (resumed : cache.resumeTask task now old = some after) :
    (endsInError old = true ∧ ∃ failure, after = cache.fail task failure now) ∨
      (publishes old = true ∧ ∃ result, old.result = some result ∧
        after = cache.publish task result ∧
        ∀ current, Labelled current old → result.value.under = result.generation) ∨
      ∃ new, new.done = false ∧ after = cache.withTask task new ∧
        ∀ current, Labelled current old → Labelled current new := by
  have again (attempts : ℕ) (resumed : some (cache.again task attempts now) = some after) :
      (attempts = 0 ∧ ∃ failure, after = cache.fail task failure now) ∨
        ∃ new, new.done = false ∧ after = cache.withTask task new ∧
          ∀ current, Labelled current old → Labelled current new := by
    cases resumed
    unfold Cache.again
    split_ifs with last
    · exact Or.inl ⟨last, superseded, rfl⟩
    · exact Or.inr ⟨_, rfl, rfl, fun _ _ => trivial⟩
  unfold Cache.resumeTask at resumed
  split at resumed
  · cases resumed
    exact Or.inr (Or.inr ⟨_, rfl, rfl, fun _ => id⟩)
  · next failure =>
      cases resumed
      exact Or.inl ⟨rfl, failure, rfl⟩
  · next result =>
      cases resumed
      exact Or.inr (Or.inl ⟨rfl, result, rfl, rfl, fun _ => And.left⟩)
  · next attempts _ =>
      rcases again attempts resumed with ⟨last, failed⟩ | goesOn
      · exact Or.inl ⟨by simp [endsInError, last], failed⟩
      · exact Or.inr (Or.inr goesOn)
  · cases resumed
    exact Or.inr (Or.inr ⟨_, rfl, rfl, fun _ => id⟩)
  · next attempts result generation =>
      split_ifs at resumed with same
      · cases resumed
        exact Or.inr (Or.inl ⟨by simp [publishes, same], result, rfl, rfl, fun _ => And.left⟩)
      · rcases again attempts resumed with ⟨last, failed⟩ | goesOn
        · exact Or.inl ⟨by simp [endsInError, same, last], failed⟩
        · exact Or.inr (Or.inr goesOn)
  · next failure =>
      cases resumed
      exact Or.inl ⟨rfl, failure, rfl⟩
  · cases resumed

theorem Sound.resumed (sound : cache.Sound current) {now : ℚ}
    (found : cache.tasks[task]? = some old)
    (resumed : cache.resumeTask task now old = some after) : after.Sound current := by
  have labelled := sound.labelled task old found
  have alive := done_of_resumeTask resumed
  rcases resumeTask_cases resumed with
    ⟨-, failure, rfl⟩ | ⟨-, result, -, rfl, under⟩ | ⟨new, -, rfl, still⟩
  · exact sound.fail found alive failure now
  · exact sound.publish found alive (under current labelled)
  · exact sound.withTask found alive (still current labelled)

def offered (cache : Cache T) (request : Request T) : Cache T :=
  match request.stage with
  | .restoring (.answered (some result)) => cache.adopt result
  | _ => cache

theorem Sound.resume (sound : cache.Sound current) {settings : RefreshSettings} {now : ℚ}
    {request : Request T} {next : Cache T × Request T}
    (labelled : ∀ result, request.stage = .restoring (.answered (some result)) →
      result.value.under = result.generation)
    (calm : ∀ task attempts failure, request.stage = .waiting task attempts →
      cache.tasks[task]? = some (.failed failure) → cache.state.value = none)
    (resumed : cache.resume settings now request = some next) :
    Proper current (cache.offered request) (next.1, next.2.stage) ∧
      (next.2.read = request.read ∨ ∃ generation, next.2.read = some generation ∧
        generation ≤ next.1.state.seen) := by
  unfold Cache.resume at resumed
  unfold offered
  cases stage : request.stage <;> rw [stage] at resumed
  case checking reply =>
    cases reply with
    | pending => cases resumed
    | failed failure =>
      cases resumed
      exact ⟨proper_afterCheck sound settings now request.kind, Or.inl rfl⟩
    | answered generation =>
      cases resumed
      rcases proper_learn sound settings now request.kind generation with ⟨proper, below⟩
      exact ⟨proper, Or.inr ⟨generation, rfl, below⟩⟩
  case restoring reply =>
    cases reply with
    | pending => cases resumed
    | failed failure =>
      cases resumed
      exact ⟨proper_afterCheck sound settings now request.kind, Or.inl rfl⟩
    | answered stored =>
      cases stored with
      | none =>
        cases resumed
        exact ⟨proper_afterCheck sound settings now request.kind, Or.inl rfl⟩
      | some result =>
        cases resumed
        have adopted := sound.adopt (labelled result stage)
        exact ⟨proper_afterCheck adopted settings now request.kind, Or.inl rfl⟩
  case waiting task attempts =>
    dsimp only at resumed
    split at resumed
    · next failure failed =>
        cases resumed
        refine ⟨⟨sound, Keeps.refl cache, by simp, ?_, by simp, by simp⟩, Or.inl rfl⟩
        intro _ _
        exact calm task attempts failure stage failed
    · have kept := sound.drop
      split_ifs at resumed <;> cases resumed
      · exact ⟨(proper_serve kept).of_keeps (keeps_drop cache), Or.inl rfl⟩
      · exact ⟨(proper_waitForFirst kept _).of_keeps (keeps_drop cache), Or.inl rfl⟩
    · simp at resumed
  case warming task =>
    dsimp only at resumed
    have gone : Proper current cache (cache, .gone) :=
      ⟨sound, Keeps.refl cache, by simp, by simp, by simp, by simp⟩
    split at resumed <;> cases resumed
    · exact ⟨gone, Or.inl rfl⟩
    · exact ⟨gone, Or.inl rfl⟩
  case served answer =>
    cases resumed
  case raised failure =>
    cases resumed
  case gone =>
    cases resumed

theorem offered_state (cache : Cache T) (request : Request T) :
    (cache.offered request).state.seen = cache.state.seen ∧
      (cache.offered request).tasks = cache.tasks := by
  unfold offered
  split
  · unfold Cache.adopt
    split_ifs <;> exact ⟨rfl, rfl⟩
  · exact ⟨rfl, rfl⟩

def takesOver (cache : Cache T) (request : Request T) : Bool :=
  match request.stage with
  | .restoring (.answered (some result)) => cache.adopts result
  | _ => false

end Cache

namespace RefreshWorld

variable {T : Type}

def awaited (world : RefreshWorld T) (task : ℕ) : Bool :=
  world.requests.any fun request =>
    match request.stage with
    | .waiting other _ => other = task
    | _ => false

def awaitsFailure (world : RefreshWorld T) : Bool :=
  world.requests.any fun request =>
    match request.stage with
    | .waiting task _ =>
      match world.cache.tasks[task]? with
      | some (.failed _) => true
      | _ => false
    | _ => false

/-- A computation that a request waits for fails only while no value is in memory, and none gets
there before that request goes on. -/
def InTime (world : RefreshWorld T) : RefreshEvent T → Prop
  | .resume id _ => ∀ request ∈ world.requests[id]?,
      world.cache.takesOver request = true → world.awaitsFailure = false
  | .failLoad task _ _ => world.awaited task = true → world.cache.state.value = none
  | .resumeTask task _ => ∀ computation ∈ world.cache.tasks[task]?,
      (Cache.endsInError computation = true → world.awaited task = true →
        world.cache.state.value = none) ∧
      (Cache.publishes computation = true → world.awaitsFailure = false)
  | _ => True

instance decidableInTime (world : RefreshWorld T) : ∀ event, Decidable (world.InTime event)
  | .resume id _ => inferInstanceAs (Decidable (∀ request ∈ world.requests[id]?,
      world.cache.takesOver request = true → world.awaitsFailure = false))
  | .failLoad task _ _ =>
    inferInstanceAs (Decidable (world.awaited task = true → world.cache.state.value = none))
  | .resumeTask task _ => inferInstanceAs (Decidable (∀ computation ∈ world.cache.tasks[task]?,
      (Cache.endsInError computation = true → world.awaited task = true →
        world.cache.state.value = none) ∧
      (Cache.publishes computation = true → world.awaitsFailure = false)))
  | .delete _ | .begin _ | .answer _ | .refuse _ _ | .timeout _ | .cancel _ | .answerTask _
  | .refuseTask _ _ _ | .load _ _ _ => isTrue trivial

/-- What is stored, offered or read has the generation it was computed under, and
no generation that a request read is newer than what the cache has seen. -/
structure Coherent (world : RefreshWorld T) : Prop where
  sound : world.cache.Sound world.store.current
  stored : ∀ result, world.store.stored = some result →
    result.value.under = result.generation ∧ result.generation ≤ world.store.current
  offered : ∀ (id : ℕ) request result, world.requests[id]? = some request →
    request.stage = .restoring (.answered (some result)) →
    result.value.under = result.generation
  read : ∀ (id : ℕ) request generation, world.requests[id]? = some request →
    request.read = some generation → generation ≤ world.cache.state.seen

def Calm (world : RefreshWorld T) : Prop :=
  ∀ (id : ℕ) request task attempts failure, world.requests[id]? = some request →
    request.stage = .waiting task attempts →
    world.cache.tasks[task]? = some (.failed failure) → world.cache.state.value = none

variable {world next : RefreshWorld T} {settings : RefreshSettings}

theorem Coherent.withRequest (coherent : world.Coherent) {id : ℕ} {old : Request T}
    (found : world.requests[id]? = some old) (new : Request T) (cache : Cache T)
    (sound : cache.Sound world.store.current) (seen : world.cache.state.seen ≤ cache.state.seen)
    (offered : ∀ result, new.stage = .restoring (.answered (some result)) →
      result.value.under = result.generation)
    (read : ∀ generation, new.read = some generation → generation ≤ cache.state.seen) :
    Coherent { world with requests := world.requests.set id new, cache := cache } where
  sound := sound
  stored := coherent.stored
  offered := by
    intro other request result there stage
    simp only [getElem?_set_of_some found] at there
    split_ifs at there
    · cases there
      exact offered result stage
    · exact coherent.offered other request result there stage
  read := by
    intro other request generation there wasRead
    simp only [getElem?_set_of_some found] at there
    split_ifs at there
    · cases there
      exact read generation wasRead
    · exact (coherent.read other request generation there wasRead).trans seen

theorem Coherent.withCache (coherent : world.Coherent) (cache : Cache T)
    (store : ResultStore T) (sound : cache.Sound store.current)
    (seen : world.cache.state.seen ≤ cache.state.seen)
    (stored : ∀ result, store.stored = some result →
      result.value.under = result.generation ∧ result.generation ≤ store.current) :
    Coherent { world with cache := cache, store := store } where
  sound := sound
  stored := stored
  offered := coherent.offered
  read := fun id request generation there wasRead =>
    (coherent.read id request generation there wasRead).trans seen

theorem write_cases (store : ResultStore T) (result : StoredResult T) :
    write store result = ({ store with stored := some result }, true) ∧
        result.generation = store.current ∨
      write store result = (store, false) := by
  unfold write
  split_ifs with current
  · exact Or.inl ⟨rfl, current⟩
  · exact Or.inr rfl

variable {result : StoredResult T}

theorem Coherent.write (coherent : world.Coherent)
    (labelled : result.value.under = result.generation) :
    (write world.store result).1.current = world.store.current ∧
      ∀ kept, (RefreshWorld.write world.store result).1.stored = some kept →
        kept.value.under = kept.generation ∧ kept.generation ≤ world.store.current := by
  rcases write_cases world.store result with ⟨written, current⟩ | refused
  · rw [written]
    refine ⟨rfl, ?_⟩
    intro kept same
    cases same
    exact ⟨labelled, current.le⟩
  · rw [refused]
    exact ⟨rfl, coherent.stored⟩

variable {computation : Computation T} {now : ℚ}

variable {task : ℕ}

theorem seen_publish (cache : Cache T) (task : ℕ) (result : StoredResult T) :
    (cache.publish task result).state.seen = cache.state.seen := by
  unfold Cache.publish
  split_ifs <;> rfl

theorem seen_resumeTask {cache after : Cache T}
    (resumed : cache.resumeTask task now computation = some after) :
    after.state.seen = cache.state.seen := by
  rcases Cache.resumeTask_cases resumed with
    ⟨-, failure, rfl⟩ | ⟨-, result, -, rfl, -⟩ | ⟨new, -, rfl, -⟩
  · rfl
  · exact seen_publish cache task result
  · rfl

variable {request : Request T}

variable {after : Cache T × Request T}

theorem Coherent.resume (coherent : world.Coherent) (calm : world.Calm) {id : ℕ}
    (found : world.requests[id]? = some request)
    (resumed : world.cache.resume settings now request = some after) :
    Coherent { world with requests := world.requests.set id after.2, cache := after.1 } ∧
      Cache.Proper world.store.current (world.cache.offered request) (after.1, after.2.stage) := by
  rcases coherent.sound.resume (fun result stage => coherent.offered id request result found stage)
    (fun task attempts failure stage failed => calm id request task attempts failure found stage
      failed) resumed with ⟨proper, read⟩
  have seen := proper.keeps.seen
  rw [(Cache.offered_state world.cache request).1] at seen
  refine ⟨coherent.withRequest found after.2 after.1 proper.sound seen ?_ ?_, proper⟩
  · intro result stage
    have pending := proper.answers.restoring _ stage
    simp at pending
  · intro generation wasRead
    rcases read with same | ⟨other, here, below⟩
    · rw [same] at wasRead
      exact (coherent.read id request generation found wasRead).trans seen
    · rw [here, Option.some.injEq] at wasRead
      exact wasRead ▸ below

/-- What an event can do: a delete, a new request, a reply that reaches a request
or the end of one, a request that goes on, a computation that moves on, fails or
resumes. -/
inductive Moves (settings : RefreshSettings) (world : RefreshWorld T) :
    RefreshEvent T → RefreshWorld T → Prop
  | delete (more : ℕ) :
      Moves settings world (.delete more)
        { world with store := { world.store with current := world.store.current + more + 1 } }
  | begin (kind : RequestKind) :
      Moves settings world (.begin kind)
        { world with requests := world.requests ++ [{ kind, stage := .checking .pending }] }
  | reply {event : RefreshEvent T} {id : ℕ} {old new : Request T}
      (found : world.requests[id]? = some old) (read : new.read = old.read)
      (stage : (∃ reply, new.stage = .checking reply) ∨ new.stage = .gone ∨
        (∃ failure, new.stage = .restoring (.failed failure)) ∨
        new.stage = .restoring (.answered world.store.stored)) :
      Moves settings world event (world.withRequest id new)
  | resume {id : ℕ} {now : ℚ} {old : Request T} {after : Cache T × Request T}
      (found : world.requests[id]? = some old)
      (resumed : world.cache.resume settings now old = some after) :
      Moves settings world (.resume id now) { world.withRequest id after.2 with cache := after.1 }
  | timeout {id : ℕ} {old : Request T} (found : world.requests[id]? = some old) :
      Moves settings world (.timeout id)
        { world.withRequest id { old with stage := world.cache.serve.2 } with
          cache := world.cache.serve.1 }
  | move {event : RefreshEvent T} {task : ℕ} {old new : Computation T} {store : ResultStore T}
      (found : world.cache.tasks[task]? = some old) (alive : old.done = false)
      (goesOn : new.done = false)
      (labelled : Cache.Labelled world.store.current old → Cache.Labelled world.store.current new)
      (written : store = world.store ∨ ∃ attempts result reply,
        old = .writing attempts result reply ∧ store = (write world.store result).1)
      (unresumed : ∀ other now, event ≠ .resumeTask other now) :
      Moves settings world event { world.withTask task new with store := store }
  | failLoad {task : ℕ} {failure : Failure} {now : ℚ} {old : Computation T}
      (found : world.cache.tasks[task]? = some old) (alive : old.done = false) :
      Moves settings world (.failLoad task failure now)
        { world with cache := world.cache.fail task failure now }
  | resumeTask {task : ℕ} {now : ℚ} {computation : Computation T} {after : Cache T}
      (found : world.cache.tasks[task]? = some computation)
      (resumed : world.cache.resumeTask task now computation = some after) :
      Moves settings world (.resumeTask task now) { world with cache := after }

variable {event : RefreshEvent T}

/-- What one event may do, as a step of the relation. -/
theorem moves_of_step (stepped : (refreshMachine T settings).step world event = some next) :
    Moves settings world event next := by
  cases event <;> simp only [refreshMachine, RefreshWorld.step] at stepped
  case delete more =>
    cases stepped
    exact .delete more
  case begin kind =>
    cases stepped
    exact .begin kind
  case answer id =>
    split at stepped
    · next request found =>
        split at stepped <;> cases stepped
        · exact .reply found rfl (Or.inl ⟨_, rfl⟩)
        · exact .reply found rfl (Or.inr (Or.inr (Or.inr rfl)))
    · simp at stepped
  case refuse id failure =>
    split at stepped
    · next request found =>
        split at stepped <;> cases stepped
        · exact .reply found rfl (Or.inl ⟨_, rfl⟩)
        · exact .reply found rfl (Or.inr (Or.inr (Or.inl ⟨_, rfl⟩)))
    · simp at stepped
  case resume id now =>
    split at stepped
    · next request found =>
        rcases Option.map_eq_some_iff.mp stepped with ⟨after, resumed, rfl⟩
        exact .resume found resumed
    · simp at stepped
  case timeout id =>
    split at stepped
    · next request found =>
        split at stepped
        · split at stepped <;> cases stepped
          exact .timeout found
        · simp at stepped
    · simp at stepped
  case cancel id =>
    split at stepped
    · next request found =>
        split at stepped <;> cases stepped
        exact .reply found rfl (Or.inr (Or.inl rfl))
    · simp at stepped
  case answerTask task =>
    split at stepped
    · next found =>
        cases stepped
        exact .move found rfl rfl (fun _ => le_rfl) (Or.inl rfl) (by simp)
    · next found =>
        cases stepped
        exact .move found rfl rfl id (Or.inr ⟨_, _, _, rfl, rfl⟩) (by simp)
    · next found =>
        cases stepped
        exact .move found rfl rfl id (Or.inl rfl) (by simp)
    · simp at stepped
  case refuseTask task failure kept =>
    split at stepped
    · next found =>
        cases stepped
        exact .move found rfl rfl (fun _ => trivial) (Or.inl rfl) (by simp)
    · next found =>
        cases stepped
        refine .move found rfl rfl id ?_ (by simp)
        cases kept with
        | true => exact Or.inr ⟨_, _, _, rfl, rfl⟩
        | false => exact Or.inl rfl
    · next found =>
        cases stepped
        exact .move found rfl rfl id (Or.inl rfl) (by simp)
    · simp at stepped
  case load task payload now =>
    split at stepped
    · next found =>
        cases stepped
        exact .move found rfl rfl (fun labelled => ⟨rfl, labelled⟩) (Or.inl rfl) (by simp)
    · simp at stepped
  case failLoad task failure now =>
    split at stepped
    · next found =>
        cases stepped
        exact .failLoad found rfl
    · simp at stepped
  case resumeTask task now =>
    split at stepped
    · next computation found =>
        rcases Option.map_eq_some_iff.mp stepped with ⟨after, resumed, rfl⟩
        exact .resumeTask found resumed
    · simp at stepped

/-- One step keeps the cache and the store coherent. -/
theorem Coherent.step (coherent : world.Coherent) (calm : world.Calm)
    (stepped : (refreshMachine T settings).step world event = some next) : next.Coherent := by
  have sound := coherent.sound
  cases moves_of_step stepped with
  | delete more =>
    refine coherent.withCache world.cache _ (sound.grow (by dsimp only; omega)) le_rfl ?_
    intro result kept
    rcases coherent.stored result kept with ⟨labelled, below⟩
    exact ⟨labelled, by dsimp only; omega⟩
  | begin kind =>
    refine ⟨sound, coherent.stored, ?_, ?_⟩
    · intro id request result there stage
      rcases getElem?_concat_cases there with earlier | ⟨-, rfl⟩
      · exact coherent.offered id request result earlier stage
      · simp at stage
    · intro id request generation there wasRead
      rcases getElem?_concat_cases there with earlier | ⟨-, rfl⟩
      · exact coherent.read id request generation earlier wasRead
      · simp at wasRead
  | reply found read stage =>
    refine coherent.withRequest found _ _ sound le_rfl ?_ ?_
    · intro result restoring
      rcases stage with ⟨reply, checking⟩ | gone | ⟨failure, failed⟩ | answered
      · simp [checking] at restoring
      · simp [gone] at restoring
      · simp [failed] at restoring
      · simp only [answered, RequestStage.restoring.injEq, Reply.answered.injEq] at restoring
        exact (coherent.stored result restoring).1
    · intro generation wasRead
      exact coherent.read _ _ generation found (read ▸ wasRead)
  | resume found resumed => exact (coherent.resume calm found resumed).1
  | timeout found =>
    have proper := Cache.proper_serve sound
    refine coherent.withRequest found _ _ proper.sound proper.keeps.seen ?_ ?_
    · intro result stage
      have pending := proper.answers.restoring _ stage
      simp at pending
    · intro generation wasRead
      exact (coherent.read _ _ generation found wasRead).trans proper.keeps.seen
  | move found alive goesOn labelled written _ =>
    have before := sound.labelled _ _ found
    have moved := sound.withTask found alive (labelled before)
    rcases written with rfl | ⟨attempts, result, reply, rfl, rfl⟩
    · exact coherent.withCache _ _ moved le_rfl coherent.stored
    · rcases coherent.write before.1 with ⟨same, stored⟩
      refine coherent.withCache _ _ ?_ le_rfl ?_
      · rw [same]
        exact moved
      · rw [same]
        exact stored
  | failLoad found alive =>
    exact coherent.withCache _ _ (sound.fail found alive _ _) le_rfl coherent.stored
  | resumeTask found resumed =>
    exact coherent.withCache _ _ (sound.resumed found resumed) (seen_resumeTask resumed).ge
      coherent.stored

theorem Calm.withRequest (calm : world.Calm) {id : ℕ} {old : Request T}
    (found : world.requests[id]? = some old) (new : Request T) (cache : Cache T)
    (keeps : Cache.Keeps world.cache cache)
    (waiting : ∀ task attempts, new.stage = .waiting task attempts →
      ∀ failure, cache.tasks[task]? ≠ some (.failed failure)) :
    Calm { world with requests := world.requests.set id new, cache := cache } := by
  intro other request task attempts failure there stage failed
  simp only [getElem?_set_of_some found] at there failed ⊢
  split_ifs at there
  · cases there
    exact absurd failed (waiting task attempts stage failure)
  · have none := calm other request task attempts failure there stage
      (keeps.failed task failure failed)
    rcases keeps.value with same | gone
    · rw [same]
      exact none
    · exact gone

theorem not_awaitsFailure (quiet : world.awaitsFailure = false) {id : ℕ}
    {task attempts : ℕ} (found : world.requests[id]? = some request)
    (stage : request.stage = .waiting task attempts) (failure : Failure) :
    world.cache.tasks[task]? ≠ some (.failed failure) := by
  intro failed
  have none := List.any_eq_false.mp quiet request (List.mem_of_getElem? found)
  simp [stage, failed] at none

theorem awaited_of_waiting {id : ℕ} {task attempts : ℕ} (found : world.requests[id]? = some request)
    (stage : request.stage = .waiting task attempts) : world.awaited task = true := by
  apply List.any_eq_true.mpr
  exact ⟨request, List.mem_of_getElem? found, by simp [stage]⟩

theorem Calm.resume (calm : world.Calm) {id : ℕ} {current : ℕ}
    (found : world.requests[id]? = some request)
    (proper : Cache.Proper current (world.cache.offered request) (after.1, after.2.stage))
    (inTime : ∀ result, request.stage = .restoring (.answered (some result)) →
      world.cache.adopts result = true → world.awaitsFailure = false) :
    Calm { world with requests := world.requests.set id after.2, cache := after.1 } := by
  by_cases adopts : ∃ result, request.stage = .restoring (.answered (some result)) ∧
      world.cache.adopts result = true
  · rcases adopts with ⟨result, stage, takes⟩
    have quiet := inTime result stage takes
    intro other waiter task attempts failure there waiting failed
    simp only [getElem?_set_of_some found] at there failed
    have earlier := proper.keeps.failed task failure failed
    rw [(Cache.offered_state world.cache request).2] at earlier
    split_ifs at there
    · cases there
      exact absurd failed (proper.answers.waiting task attempts waiting failure)
    · exact absurd earlier (not_awaitsFailure quiet there waiting failure)
  · have same : world.cache.offered request = world.cache := by
      unfold Cache.offered
      split
      · next result stage =>
          apply Cache.adopt_of_not
          by_contra takes
          exact adopts ⟨result, stage, by simpa using takes⟩
      · rfl
    have keeps := proper.keeps
    rw [same] at keeps
    exact calm.withRequest found after.2 after.1 keeps proper.answers.waiting

theorem Calm.withCache (calm : world.Calm) {old new : Computation T}
    {cache : Cache T} {store : ResultStore T} (found : world.cache.tasks[task]? = some old)
    (tasks : cache.tasks = world.cache.tasks.set task new)
    (value : cache.state.value = world.cache.state.value ∨ world.awaitsFailure = false)
    (fails : ∀ failure, new = .failed failure → cache.state.value = world.cache.state.value ∧
      (world.awaited task = true → world.cache.state.value = none)) :
    Calm { world with cache := cache, store := store } := by
  intro id request other attempts failure there stage failed
  simp only [tasks, getElem?_set_of_some found] at failed
  split_ifs at failed with same
  · rcases fails failure (Option.some.inj failed) with ⟨unchanged, empty⟩
    have none := empty (same ▸ awaited_of_waiting there stage)
    exact unchanged.trans none
  · rcases value with unchanged | quiet
    · exact unchanged.trans (calm id request other attempts failure there stage failed)
    · exact absurd failed (not_awaitsFailure quiet there stage failure)

theorem value_publish_of_older {cache : Cache T} (older : result.generation < cache.state.seen) :
    (cache.publish task result).state.value = cache.state.value := by
  unfold Cache.publish
  rw [if_neg (fun both => absurd both.1 (Nat.not_le.mpr older))]
  rfl

section

variable (coherent : world.Coherent) (calm : world.Calm)

include coherent calm

/-- A step whose reads come in time leaves no deleted result on its way out. -/
theorem Calm.step (inTime : world.InTime event)
    (stepped : (refreshMachine T settings).step world event = some next) : next.Calm := by
  cases moves_of_step stepped with
  | delete more => exact calm
  | begin kind =>
    intro id request task attempts failure there stage failed
    rcases getElem?_concat_cases there with earlier | ⟨-, rfl⟩
    · exact calm id request task attempts failure earlier stage failed
    · simp at stage
  | reply found read stage =>
    refine calm.withRequest found _ _ (Cache.Keeps.refl _) ?_
    intro task attempts waiting
    rcases stage with ⟨reply, checking⟩ | gone | ⟨failure, failed⟩ | answered
    · simp [checking] at waiting
    · simp [gone] at waiting
    · simp [failed] at waiting
    · simp [answered] at waiting
  | resume found resumed =>
    refine calm.resume found (coherent.resume calm found resumed).2 ?_
    intro result stage adopts
    apply inTime _ found
    simpa [Cache.takesOver, stage] using adopts
  | timeout found =>
    have proper := Cache.proper_serve coherent.sound
    exact calm.withRequest found _ _ proper.keeps proper.answers.waiting
  | move found alive goesOn labelled written _ =>
    refine calm.withCache found rfl (Or.inl rfl) ?_
    rintro failure rfl
    simp [Computation.done] at goesOn
  | failLoad found alive =>
    exact calm.withCache found rfl (Or.inl rfl) fun _ _ => ⟨rfl, inTime⟩
  | resumeTask found resumed =>
    rcases inTime _ found with ⟨failing, publishing⟩
    rcases Cache.resumeTask_cases resumed with
      ⟨ends, failure, rfl⟩ | ⟨published, result, -, rfl, -⟩ | ⟨new, alive, rfl, -⟩
    · exact calm.withCache found rfl (Or.inl rfl) fun _ _ => ⟨rfl, failing ends⟩
    · exact calm.withCache found rfl (Or.inr (publishing published)) (by simp)
    · refine calm.withCache found rfl (Or.inl rfl) ?_
      rintro failure rfl
      simp [Computation.done] at alive

theorem step_answers (stepped : (refreshMachine T settings).step world event = some next) {id : ℕ}
    (there : next.requests[id]? = some request) (new : world.requests[id]? ≠ some request)
    (ended : (∃ answer, request.stage = .served answer) ∨
      ∃ failure, request.stage = .raised failure) :
    Cache.Answers next.cache request.stage := by
  cases moves_of_step stepped with
  | delete more => exact absurd there new
  | begin kind =>
    rcases getElem?_concat_cases there with earlier | ⟨-, rfl⟩
    · exact absurd earlier new
    · simp at ended
  | reply found read stage =>
    simp only [RefreshWorld.withRequest, getElem?_set_of_some found] at there
    split_ifs at there
    · cases there
      rcases stage with ⟨reply, checking⟩ | gone | ⟨failure, failed⟩ | answered
      · simp [checking] at ended
      · simp [gone] at ended
      · simp [failed] at ended
      · simp [answered] at ended
    · exact absurd there new
  | resume found resumed =>
    simp only [RefreshWorld.withRequest, getElem?_set_of_some found] at there
    split_ifs at there
    · cases there
      exact (coherent.resume calm found resumed).2.answers
    · exact absurd there new
  | timeout found =>
    simp only [RefreshWorld.withRequest, getElem?_set_of_some found] at there
    split_ifs at there
    · cases there
      exact (Cache.proper_serve coherent.sound).answers
    · exact absurd there new
  | move found alive goesOn labelled written _ => exact absurd there new
  | failLoad found alive => exact absurd there new
  | resumeTask found resumed => exact absurd there new

theorem value_of_new_failure (stepped : (refreshMachine T settings).step world event = some next)
    {failure : Failure} (failed : next.cache.tasks[task]? = some (.failed failure))
    (new : world.cache.tasks[task]? ≠ some (.failed failure)) :
    next.cache.state.value = world.cache.state.value := by
  cases moves_of_step stepped with
  | delete more => rfl
  | begin kind => rfl
  | reply found read stage => rfl
  | resume found resumed =>
    have earlier := (coherent.resume calm found resumed).2.keeps.failed task failure failed
    rw [(Cache.offered_state world.cache _).2] at earlier
    exact absurd earlier new
  | timeout found =>
    exact absurd ((Cache.keeps_drop world.cache).failed task failure failed) new
  | move found alive goesOn labelled written _ => rfl
  | failLoad found alive => rfl
  | resumeTask found resumed =>
    rcases Cache.resumeTask_cases resumed with
      ⟨-, failure, rfl⟩ | ⟨-, result, -, rfl, -⟩ | ⟨new, -, rfl, -⟩
    · rfl
    · simp only [Cache.publish, Cache.withTask, getElem?_set_of_some found] at failed
      split_ifs at failed
      · simp at failed
      · exact absurd failed new
    · rfl

end

theorem value_of_superseded
    (stepped : (refreshMachine T settings).step world (.resumeTask task now) = some next)
    (found : world.cache.tasks[task]? = some computation)
    (outdated : Cache.publishes computation = false ∨
      ∀ result, computation.result = some result → result.generation < world.cache.state.seen) :
    next.cache.state.value = world.cache.state.value := by
  simp only [refreshMachine, RefreshWorld.step, found] at stepped
  rcases Option.map_eq_some_iff.mp stepped with ⟨after, resumed, rfl⟩
  rcases Cache.resumeTask_cases resumed with
    ⟨-, failure, rfl⟩ | ⟨publishes, result, computed, rfl, -⟩ | ⟨new, -, rfl, -⟩
  · rfl
  · rcases outdated with silent | older
    · rw [silent] at publishes
      simp at publishes
    · exact value_publish_of_older (older result computed)
  · rfl

/-- The stored generation never goes back. -/
theorem stored_step (coherent : world.Coherent)
    (stepped : (refreshMachine T settings).step world event = some next)
    (stored : world.store.stored = some result) :
    ∃ kept, next.store.stored = some kept ∧ result.generation ≤ kept.generation := by
  have same : ∃ kept, world.store.stored = some kept ∧ result.generation ≤ kept.generation :=
    ⟨result, stored, le_rfl⟩
  cases moves_of_step stepped with
  | delete more => exact same
  | begin kind => exact same
  | reply found read stage => exact same
  | resume found resumed => exact same
  | timeout found => exact same
  | move found alive goesOn labelled written _ =>
    rcases written with rfl | ⟨attempts, later, reply, rfl, rfl⟩
    · exact same
    · rcases write_cases world.store later with ⟨accepted, current⟩ | refused
      · rw [accepted]
        refine ⟨later, rfl, ?_⟩
        rw [current]
        exact (coherent.stored result stored).2
      · rw [refused]
        exact same
  | failLoad found alive => exact same
  | resumeTask found resumed => exact same

def restarted (generation deletes : ℕ) (stored : Option (T × ℚ)) : RefreshWorld T where
  store :=
    { current := generation + deletes
      stored := stored.map fun result => ⟨⟨result.1, generation⟩, result.2, generation⟩ }

theorem coherent_restarted (generation deletes : ℕ) (stored : Option (T × ℚ)) :
    (restarted generation deletes stored).Coherent := by
  refine ⟨⟨?_, ?_, ?_, ?_⟩, ?_, ?_, ?_⟩
  · simp [restarted]
  · simp [restarted]
  · simp [restarted]
  · simp [restarted]
  · intro result kept
    rcases Option.map_eq_some_iff.mp kept with ⟨loaded, -, rfl⟩
    exact ⟨rfl, Nat.le_add_right generation deletes⟩
  · simp [restarted]
  · simp [restarted]

theorem calm_restarted (generation deletes : ℕ) (stored : Option (T × ℚ)) :
    (restarted generation deletes stored).Calm := by
  intro id request task attempts failure there
  simp [restarted] at there

theorem kept_of_run {generation deletes : ℕ} {stored : Option (T × ℚ)}
    {events : List (RefreshEvent T)}
    (along : (refreshMachine T settings).Along InTime (restarted generation deletes stored) events)
    (ran : (refreshMachine T settings).run (restarted generation deletes stored) events =
      some world) : world.Coherent ∧ world.Calm := by
  apply Machine.run_invariant_along InTime _ _ along ran
  · intro state event after holds inTime stepped
    exact ⟨holds.1.step holds.2 stepped, holds.2.step holds.1 inTime stepped⟩
  · exact ⟨coherent_restarted generation deletes stored, calm_restarted generation deletes stored⟩

end RefreshWorld

variable {T : Type} {settings : RefreshSettings} {world next : RefreshWorld T}

/-- No step of a run in time serves what a delete removed, what is stored only gets newer, and an
error is raised only without a value in memory. -/
theorem refreshing_result_serves_nothing_deleted {generation deletes : ℕ}
    {stored : Option (T × ℚ)} {events : List (RefreshEvent T)} {event : RefreshEvent T}
    (along : (refreshMachine T settings).Along RefreshWorld.InTime
      (.restarted generation deletes stored) events)
    (ran : (refreshMachine T settings).run (.restarted generation deletes stored) events =
      some world) (stepped : (refreshMachine T settings).step world event = some next) :
    (∀ (id : ℕ) request answer, next.requests[id]? = some request →
      world.requests[id]? ≠ some request → request.stage = .served answer →
      answer.value = next.cache.state.value ∧
      answer.refreshError = next.cache.state.error.map Failure.describe ∧
      ∀ value, answer.value = some value →
        ∀ (other : ℕ) reader read, next.requests[other]? = some reader →
          reader.read = some read → read ≤ value.under) ∧
    (∀ (first second : ℕ) one another, next.cache.tasks[first]? = some one →
      next.cache.tasks[second]? = some another → one.done = false → another.done = false →
      first = second) ∧
    (∀ (task : ℕ) failure, next.cache.tasks[task]? = some (.failed failure) →
      world.cache.tasks[task]? ≠ some (.failed failure) →
      next.cache.state.value = world.cache.state.value) ∧
    (∀ (task : ℕ) now computation, event = .resumeTask task now →
      world.cache.tasks[task]? = some computation →
      (Cache.publishes computation = false ∨ ∀ result, computation.result = some result →
        result.generation < world.cache.state.seen) →
      next.cache.state.value = world.cache.state.value) ∧
    (∀ result, world.store.stored = some result →
      ∃ kept, next.store.stored = some kept ∧ result.generation ≤ kept.generation) ∧
    ∀ (id : ℕ) request failure, next.requests[id]? = some request →
      world.requests[id]? ≠ some request → request.stage = .raised failure →
      next.cache.state.value = none := by
  rcases RefreshWorld.kept_of_run along ran with ⟨coherent, calm⟩
  have after : next.Coherent := coherent.step calm stepped
  refine ⟨?_, ?_, ?_, ?_, ?_, ?_⟩
  · intro id request answer there new stage
    have answers := RefreshWorld.step_answers coherent calm stepped there new
      (Or.inl ⟨answer, stage⟩)
    rcases answers.served answer stage with ⟨inMemory, error, fresh⟩
    refine ⟨inMemory, error, ?_⟩
    intro value served other reader read otherThere wasRead
    exact (after.read other reader read otherThere wasRead).trans (fresh value served)
  · intro first second one another oneThere anotherThere oneRuns anotherRuns
    have firstOnly := after.sound.single first one oneThere oneRuns
    have secondOnly := after.sound.single second another anotherThere anotherRuns
    rw [firstOnly, Option.some.injEq] at secondOnly
    exact secondOnly
  · intro task failure failed new
    exact RefreshWorld.value_of_new_failure coherent calm stepped failed new
  · rintro task now computation rfl found outdated
    exact RefreshWorld.value_of_superseded stepped found outdated
  · intro result kept
    exact RefreshWorld.stored_step coherent stepped kept
  · intro id request failure there new stage
    have answers := RefreshWorld.step_answers coherent calm stepped there new
      (Or.inr ⟨failure, stage⟩)
    exact answers.raised failure stage

/-- Two requests read generation 0 and, after a delete, generation 1; the first
goes on with a stored result of generation 0 and serves what the second has made
compute. -/
theorem refreshing_result_serves_nothing_deleted_after_delete :
    let start : RefreshWorld ℕ := .restarted 0 0 (some (7, 900))
    let events : List (RefreshEvent ℕ) :=
      [.begin (.get false), .answer 0, .resume 0 1000, .answer 0, .delete 0,
        .begin (.get false), .answer 1, .resume 1 1001, .answerTask 0, .resumeTask 0 1002,
        .load 0 8 1003, .answerTask 0, .resumeTask 0 1003]
    ∃ next request answer value,
      (refreshMachine ℕ ⟨300, 60⟩).run start (events ++ [.resume 0 1004]) = some next ∧
      next.requests[0]? = some request ∧ request.stage = .served answer ∧
      answer.value = some value ∧ 1 ≤ value.under := by
  intro start events
  have along : (refreshMachine ℕ ⟨300, 60⟩).Along RefreshWorld.InTime start events := by
    decide +kernel
  have last : ((refreshMachine ℕ ⟨300, 60⟩).run start events).bind (fun world =>
      ((refreshMachine ℕ ⟨300, 60⟩).step world (.resume 0 1004)).map fun next =>
        (world.requests, next.requests)) =
      some ([⟨.get false, .restoring (.answered (some ⟨⟨7, 0⟩, 900, 0⟩)), some 0⟩,
          ⟨.get false, .waiting 0 2, some 1⟩],
        [⟨.get false, .served ⟨some ⟨8, 1⟩, false, none⟩, some 0⟩,
          ⟨.get false, .waiting 0 2, some 1⟩]) := by
    decide +kernel
  rcases Option.bind_eq_some_iff.mp last with ⟨world, ran, last⟩
  rcases Option.map_eq_some_iff.mp last with ⟨next, stepped, requests⟩
  rcases Prod.mk.inj requests with ⟨before, after⟩
  have served := refreshing_result_serves_nothing_deleted along ran stepped
  have first : next.requests[0]? =
      some ⟨.get false, .served ⟨some ⟨8, 1⟩, false, none⟩, some 0⟩ := by
    simp [after]
  have second : next.requests[1]? = some ⟨.get false, .waiting 0 2, some 1⟩ := by
    simp [after]
  refine ⟨next, _, ⟨some ⟨8, 1⟩, false, none⟩, ⟨8, 1⟩, ?_, first, rfl, rfl, ?_⟩
  · exact Machine.run_append_eq_some.mpr
      ⟨world, ran, Machine.run_cons_eq_some.mpr ⟨next, stepped, rfl⟩⟩
  · exact (served.1 0 _ _ first (by simp [before]) rfl).2.2 _ rfl 1 _ 1 second rfl

/-- A request takes the stored result over and serves it; then the computation
another request waits for fails, and that request raises the error although the
result is in memory. -/
theorem error_raised_with_a_value_in_memory :
    ((refreshMachine ℕ ⟨300, 60⟩).run (.restarted 0 0 (some (7, 900)))
        [.begin (.get false), .begin (.get false), .answer 0, .resume 0 1000, .answer 1,
          .resume 1 1000, .answer 0, .resume 0 1001, .refuseTask 0 ⟨"down", "OSError"⟩ false,
          .resumeTask 0 1002, .resume 1 1002]).map
        (fun world => (world.cache.state.value, world.requests.map Request.stage)) =
      some (some ⟨7, 0⟩, [.served ⟨some ⟨7, 0⟩, true, none⟩, .raised ⟨"down", "OSError"⟩]) := by
  decide +kernel

end HybridInference.Admin
