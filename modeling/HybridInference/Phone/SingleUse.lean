import HybridInference.Phone.Windows

/-!
# A phone code is used once

The row of a key is the challenge that was reserved last, and it knows how often it
was guessed and whether it was guessed right. Who guesses holds the row until the
answer is committed.
-/

namespace HybridInference.Phone

open Library

def Entry.reservation? (key : CodeKey) : Entry → Option (String × String × ℤ)
  | .reserved other challengeId codeHash expiresAt =>
    if other = key then some (challengeId, codeHash, expiresAt) else none
  | .admitted _ | .swept _ | .activated _ | .compared _ _ _ _ _ => none

def lastReserved (history : List Entry) (key : CodeKey) : Option (String × String × ℤ) :=
  (history.filterMap (Entry.reservation? key)).getLast?

def Entry.compares (challengeId : String) : Entry → Bool
  | .compared _ other _ _ _ => other = challengeId
  | .admitted _ | .swept _ | .reserved _ _ _ _ | .activated _ => false

def Entry.accepts (challengeId : String) : Entry → Bool
  | .compared _ other _ _ ok => other = challengeId && ok
  | .admitted _ | .swept _ | .reserved _ _ _ _ | .activated _ => false

def comparisonsOf (history : List Entry) (challengeId : String) : ℕ :=
  history.countP (Entry.compares challengeId)

def acceptancesOf (history : List Entry) (challengeId : String) : ℕ :=
  history.countP (Entry.accepts challengeId)

def Rightful (limits : Limits) (before : List Entry) : Entry → Prop
  | .compared key challengeId now guess ok => ∃ codeHash expiresAt,
      lastReserved before key = some (challengeId, codeHash, expiresAt) ∧
        Entry.activated challengeId ∈ before ∧ now < expiresAt ∧
        (ok = true ↔ codeHash = guess) ∧ acceptancesOf before challengeId = 0 ∧
        comparisonsOf before challengeId < limits.maxAttempts
  | .admitted _ | .swept _ | .reserved _ _ _ _ | .activated _ => True

def Superseded (history : List Entry) (challengeId : String) : Prop :=
  ∃ key, (∃ codeHash expiresAt, Entry.reserved key challengeId codeHash expiresAt ∈ history) ∧
    ∀ codeHash expiresAt, lastReserved history key ≠ some (challengeId, codeHash, expiresAt)

/-- What a code is used for: one acceptance, a bounded number of comparisons, nothing once it was
superseded. -/
structure SingleUse (limits : Limits) (store : Store) : Prop where
  rightful : ∀ place entry, store.history[place]? = some entry →
    Rightful limits (store.history.take place) entry
  once : ∀ challengeId, acceptancesOf store.history challengeId ≤ 1
  bounded : ∀ challengeId, comparisonsOf store.history challengeId ≤ limits.maxAttempts
  superseded : ∀ challengeId now next, Superseded store.history challengeId →
    store.step limits (.activate challengeId now) = some next ∨
      store.step limits (.invalidate challengeId) = some next →
    next = store

/-- What a row of the codes tells about the history. -/
structure Tells (history : List Entry) (key : CodeKey) (row : CodeRow) : Prop where
  last : lastReserved history key = some (row.challengeId, row.codeHash, row.expiresAt)
  active : row.active = true → Entry.activated row.challengeId ∈ history
  attempts : comparisonsOf history row.challengeId = row.attempts
  unconsumed : row.consumedAt = none → acceptancesOf history row.challengeId = 0

/-- Every row tells the truth, and every transaction may still rely on what it read. -/
structure Guarded (limits : Limits) (store : Store) : Prop where
  rightful : ∀ place entry, store.history[place]? = some entry →
    Rightful limits (store.history.take place) entry
  once : ∀ challengeId, acceptancesOf store.history challengeId ≤ 1
  bounded : ∀ challengeId, comparisonsOf store.history challengeId ≤ limits.maxAttempts
  rows : ∀ key row, store.codes.find key = some row → Tells store.history key row
  selected : ∀ (place : ℕ) (consume : Consume) (row : CodeRow),
    store.transactions[place]? = some (.consumeSelected consume (some row)) →
    store.codes.find consume.key = some row
  exclusive : ∀ (place other : ℕ) (transaction another : Transaction) (key : CodeKey),
    store.transactions[place]? = some transaction → store.transactions[other]? = some another →
    other ≠ place → key ∈ transaction.rowLocks → key ∉ another.rowLocks
  distinct : (store.history.filterMap Entry.challenge?).Nodup
  known : ∀ entry ∈ store.history, ∀ challengeId, entry.compares challengeId = true →
    challengeId ∈ store.history.filterMap Entry.challenge?
  fresh : ∀ (place : ℕ) (transaction : Transaction) (challengeId : String),
    store.transactions[place]? = some transaction → transaction.challenge = some challengeId →
    challengeId ∉ store.history.filterMap Entry.challenge?
  apart : ∀ (place other : ℕ) (transaction another : Transaction) (challengeId : String),
    store.transactions[place]? = some transaction → store.transactions[other]? = some another →
    other ≠ place → transaction.challenge = some challengeId →
    another.challenge ≠ some challengeId

section Guards

variable {limits : Limits} {store : Store}

variable {challengeId : String}

theorem Entry.compares_of_accepts {entry : Entry}
    (accepts : entry.accepts challengeId = true) : entry.compares challengeId = true := by
  cases entry <;> simp_all [Entry.accepts, Entry.compares]

theorem Guarded.unused (guarded : Guarded limits store)
    (unreserved : challengeId ∉ store.history.filterMap Entry.challenge?) :
    comparisonsOf store.history challengeId = 0 ∧ acceptancesOf store.history challengeId = 0 := by
  constructor
  · refine List.countP_eq_zero.mpr fun entry member compares => ?_
    exact unreserved (guarded.known entry member challengeId compares)
  · refine List.countP_eq_zero.mpr fun entry member accepts => ?_
    exact unreserved (guarded.known entry member challengeId (Entry.compares_of_accepts accepts))

variable {history more : List Entry}

theorem comparisonsOf_append_quiet (quiet : ∀ entry ∈ more, entry.compares challengeId = false) :
    comparisonsOf (history ++ more) challengeId = comparisonsOf history challengeId := by
  have noComparison : more.countP (Entry.compares challengeId) = 0 :=
    List.countP_eq_zero.mpr fun entry member => by simp [quiet entry member]
  rw [comparisonsOf, List.countP_append, noComparison]
  rfl

theorem acceptancesOf_append_quiet (quiet : ∀ entry ∈ more, entry.compares challengeId = false) :
    acceptancesOf (history ++ more) challengeId = acceptancesOf history challengeId := by
  have noAcceptance : more.countP (Entry.accepts challengeId) = 0 := by
    refine List.countP_eq_zero.mpr fun entry member accepts => ?_
    have uncompared := quiet entry member
    rw [Entry.compares_of_accepts accepts] at uncompared
    cases uncompared
  rw [acceptancesOf, List.countP_append, noAcceptance]
  rfl

variable {key : CodeKey} {row : CodeRow}

theorem Tells.append (tells : Tells history key row)
    (reserves : ∀ entry ∈ more, entry.reservation? key = none)
    (compares : ∀ entry ∈ more, entry.compares row.challengeId = false) :
    Tells (history ++ more) key row := by
  have noReservation : more.filterMap (Entry.reservation? key) = [] :=
    List.filterMap_eq_nil_iff.mpr reserves
  refine ⟨?_, ?_, ?_, ?_⟩
  · simpa [lastReserved, List.filterMap_append, noReservation] using tells.last
  · intro active
    exact List.mem_append_left _ (tells.active active)
  · rw [comparisonsOf_append_quiet compares]
    exact tells.attempts
  · intro unconsumed
    rw [acceptancesOf_append_quiet compares]
    exact tells.unconsumed unconsumed

theorem rightful_concat {last : Entry} (rightful : ∀ place entry, history[place]? = some entry →
      Rightful limits (history.take place) entry) (new : Rightful limits history last) :
    ∀ place entry, (history ++ [last])[place]? = some entry →
      Rightful limits ((history ++ [last]).take place) entry := by
  intro place entry found
  rcases getElem?_concat_cases found with earlier | ⟨rfl, rfl⟩
  · have inside := (List.getElem?_eq_some_iff.mp earlier).1
    rw [List.take_append_of_le_length (Nat.le_of_lt inside)]
    exact rightful place entry earlier
  · rw [List.take_left]
    exact new

variable {place : ℕ}

theorem Guarded.move {before after : Transaction} (guarded : Guarded limits store)
    (found : store.transactions[place]? = some before)
    (challenge : after.challenge = before.challenge ∨ after.challenge = none)
    (selected : ∀ consume row, after = .consumeSelected consume (some row) →
      store.codes.find consume.key = some row)
    (free : ∀ key ∈ after.rowLocks, ∀ (other : ℕ) (another : Transaction),
      store.transactions[other]? = some another → other ≠ place → key ∉ another.rowLocks) :
    Guarded limits (store.setTransaction place after) := by
  have wasDrawn {challengeId : String} (drawn : after.challenge = some challengeId) :
      before.challenge = some challengeId := by
    rcases challenge with same | none_
    · exact same ▸ drawn
    · rw [none_] at drawn
      cases drawn
  refine ⟨guarded.rightful, guarded.once, guarded.bounded, guarded.rows, ?_, ?_, guarded.distinct,
    guarded.known, ?_, ?_⟩
  · intro other consume row isFound
    rcases Store.setTransaction_cases found isFound with ⟨-, same⟩ | ⟨-, earlier⟩
    · exact selected consume row same.symm
    · exact guarded.selected other consume row earlier
  · intro first second transaction another key isFirst isSecond different locked
    rcases Store.setTransaction_cases found isFirst with ⟨rfl, rfl⟩ | ⟨notPlace, earlierFirst⟩
    · rcases Store.setTransaction_cases found isSecond with ⟨rfl, -⟩ | ⟨-, earlierSecond⟩
      · exact absurd rfl different
      · exact free key locked second another earlierSecond different
    · rcases Store.setTransaction_cases found isSecond with ⟨rfl, rfl⟩ | ⟨-, earlierSecond⟩
      · intro alsoLocked
        exact free key alsoLocked first transaction earlierFirst notPlace locked
      · exact guarded.exclusive first second transaction another key earlierFirst earlierSecond
          different locked
  · intro other transaction challengeId isFound drawn
    rcases Store.setTransaction_cases found isFound with ⟨-, rfl⟩ | ⟨-, earlier⟩
    · exact guarded.fresh place before challengeId found (wasDrawn drawn)
    · exact guarded.fresh other transaction challengeId earlier drawn
  · intro first second transaction another challengeId isFirst isSecond different drawn
    rcases Store.setTransaction_cases found isFirst with ⟨rfl, rfl⟩ | ⟨notPlace, earlierFirst⟩
    · rcases Store.setTransaction_cases found isSecond with ⟨rfl, -⟩ | ⟨-, earlierSecond⟩
      · exact absurd rfl different
      · exact guarded.apart first second before another challengeId found earlierSecond different
          (wasDrawn drawn)
    · rcases Store.setTransaction_cases found isSecond with ⟨rfl, rfl⟩ | ⟨-, earlierSecond⟩
      · intro alsoDrawn
        exact guarded.apart first second transaction before challengeId earlierFirst found
          different drawn (wasDrawn alsoDrawn)
      · exact guarded.apart first second transaction another challengeId earlierFirst
          earlierSecond different drawn

theorem unseen_of_isFresh (isFresh : store.isFresh challengeId = true) :
    (∀ other ∈ store.transactions, other.challenge ≠ some challengeId) ∧
      challengeId ∉ store.history.filterMap Entry.challenge? := by
  simp only [Store.isFresh, Bool.and_eq_true, List.all_eq_true, decide_eq_true_eq] at isFresh
  refine ⟨isFresh.1, ?_⟩
  intro reserved
  rcases List.mem_filterMap.mp reserved with ⟨entry, member, isReserved⟩
  exact isFresh.2 entry member isReserved

theorem Guarded.begin {transaction : Transaction} (guarded : Guarded limits store)
    (unlocked : transaction.rowLocks = [])
    (unselected : ∀ consume row, transaction ≠ .consumeSelected consume (some row))
    (fresh : ∀ challengeId, transaction.challenge = some challengeId →
      store.isFresh challengeId = true) :
    Guarded limits { store with transactions := store.transactions ++ [transaction] } := by
  have unseen {challengeId : String} (drawn : transaction.challenge = some challengeId) :=
    unseen_of_isFresh (fresh challengeId drawn)
  refine ⟨guarded.rightful, guarded.once, guarded.bounded, guarded.rows, ?_, ?_, guarded.distinct,
    guarded.known, ?_, ?_⟩
  · intro place consume row isFound
    rcases getElem?_concat_cases isFound with earlier | ⟨-, same⟩
    · exact guarded.selected place consume row earlier
    · exact absurd same.symm (unselected consume row)
  · intro first second other another key isFirst isSecond different locked
    rcases getElem?_concat_cases isFirst with earlierFirst | ⟨-, rfl⟩
    · rcases getElem?_concat_cases isSecond with earlierSecond | ⟨-, rfl⟩
      · exact guarded.exclusive first second other another key earlierFirst earlierSecond different
          locked
      · simp [unlocked]
    · simp [unlocked] at locked
  · intro place other challengeId isFound drawn
    rcases getElem?_concat_cases isFound with earlier | ⟨-, rfl⟩
    · exact guarded.fresh place other challengeId earlier drawn
    · exact (unseen drawn).2
  · intro first second other another challengeId isFirst isSecond different drawn
    rcases getElem?_concat_cases isFirst with earlierFirst | ⟨firstLast, rfl⟩
    · rcases getElem?_concat_cases isSecond with earlierSecond | ⟨-, rfl⟩
      · exact guarded.apart first second other another challengeId earlierFirst earlierSecond
          different drawn
      · intro alsoDrawn
        exact (unseen alsoDrawn).1 other (List.mem_of_getElem? earlierFirst) drawn
    · rcases getElem?_concat_cases isSecond with earlierSecond | ⟨secondLast, -⟩
      · exact (unseen drawn).1 another (List.mem_of_getElem? earlierSecond)
      · exact absurd (secondLast.trans firstLast.symm) different

theorem Guarded.write {later : Store} (guarded : Guarded limits store)
    (transactions : later.transactions = store.transactions)
    (history : later.history = store.history ++ more)
    (rightful : ∀ place entry, later.history[place]? = some entry →
      Rightful limits (later.history.take place) entry)
    (once : ∀ challengeId, acceptancesOf later.history challengeId ≤ 1)
    (bounded : ∀ challengeId, comparisonsOf later.history challengeId ≤ limits.maxAttempts)
    (rows : ∀ key row, later.codes.find key = some row → Tells later.history key row)
    (selected : ∀ (place : ℕ) (consume : Consume) (row : CodeRow),
      store.transactions[place]? = some (.consumeSelected consume (some row)) →
      later.codes.find consume.key = some row) (distinct : (more.filterMap Entry.challenge?).Nodup)
    (fresh : ∀ challengeId ∈ more.filterMap Entry.challenge?, store.isFresh challengeId = true)
    (known : ∀ entry ∈ more, ∀ challengeId, entry.compares challengeId = true →
      challengeId ∈ store.history.filterMap Entry.challenge?) : Guarded limits later := by
  refine ⟨rightful, once, bounded, rows, ?_, ?_, ?_, ?_, ?_, ?_⟩
  · intro place consume row isFound
    rw [transactions] at isFound
    exact selected place consume row isFound
  · rw [transactions]
    exact guarded.exclusive
  · rw [history, List.filterMap_append, List.nodup_append']
    refine ⟨guarded.distinct, distinct, ?_⟩
    intro challengeId wasReserved isReserved
    exact (unseen_of_isFresh (fresh challengeId isReserved)).2 wasReserved
  · intro entry member challengeId compares
    rw [history] at member ⊢
    rw [List.filterMap_append]
    apply List.mem_append_left
    rcases List.mem_append.mp member with earlier | last
    · exact guarded.known entry earlier challengeId compares
    · exact known entry last challengeId compares
  · intro place transaction challengeId isFound drawn
    rw [transactions] at isFound
    rw [history, List.filterMap_append]
    intro reserved
    rcases List.mem_append.mp reserved with earlier | last
    · exact guarded.fresh place transaction challengeId isFound drawn earlier
    · exact (unseen_of_isFresh (fresh challengeId last)).1 transaction
        (List.mem_of_getElem? isFound)
        drawn
  · rw [transactions]
    exact guarded.apart

theorem rightful_append (rightful : ∀ place entry, history[place]? = some entry →
      Rightful limits (history.take place) entry)
    (quiet : ∀ entry ∈ more, ∀ challengeId, entry.compares challengeId = false) :
    ∀ place entry, (history ++ more)[place]? = some entry →
      Rightful limits ((history ++ more).take place) entry := by
  intro place entry found
  by_cases inside : place < history.length
  · rw [List.getElem?_append_left inside] at found
    rw [List.take_append_of_le_length (Nat.le_of_lt inside)]
    exact rightful place entry found
  · rw [List.getElem?_append_right (Nat.le_of_not_lt inside)] at found
    have silent := quiet entry (List.mem_of_getElem? found)
    cases entry with
    | compared key challengeId now guess ok =>
      have uncompared := silent challengeId
      simp [Entry.compares] at uncompared
    | admitted attempt => trivial
    | swept now => trivial
    | reserved key challengeId codeHash expiresAt => trivial
    | activated challengeId => trivial

theorem Guarded.writeQuiet {later : Store} (guarded : Guarded limits store)
    (transactions : later.transactions = store.transactions)
    (history : later.history = store.history ++ more)
    (quiet : ∀ entry ∈ more, ∀ challengeId, entry.compares challengeId = false)
    (rows : ∀ key row, later.codes.find key = some row → Tells later.history key row)
    (selected : ∀ (place : ℕ) (consume : Consume) (row : CodeRow),
      store.transactions[place]? = some (.consumeSelected consume (some row)) →
      later.codes.find consume.key = some row) (distinct : (more.filterMap Entry.challenge?).Nodup)
    (fresh : ∀ challengeId ∈ more.filterMap Entry.challenge?,
      store.isFresh challengeId = true) : Guarded limits later := by
  refine guarded.write transactions history ?_ ?_ ?_ rows selected distinct fresh ?_
  · rw [history]
    exact rightful_append guarded.rightful quiet
  · intro challengeId
    rw [history, acceptancesOf_append_quiet fun entry member => quiet entry member challengeId]
    exact guarded.once challengeId
  · intro challengeId
    rw [history, comparisonsOf_append_quiet fun entry member => quiet entry member challengeId]
    exact guarded.bounded challengeId
  · intro entry member challengeId compares
    rw [quiet entry member challengeId] at compares
    cases compares

theorem Guarded.ends {before : Transaction} (guarded : Guarded limits store)
    (found : store.transactions[place]? = some before) :
    Guarded limits (store.setTransaction place .ended) := by
  apply guarded.move found
  · exact Or.inr rfl
  · intro _ _ same
    cases same
  · intro _ locked
    cases locked

theorem Guarded.tells_reserved {challengeId codeHash : String}
    {expiresAt : ℤ} (guarded : Guarded limits store)
    (unreserved : challengeId ∉ store.history.filterMap Entry.challenge?)
    (last : lastReserved (store.history ++ more) key = some (challengeId, codeHash, expiresAt))
    (quiet : ∀ entry ∈ more, entry.compares challengeId = false) :
    Tells (store.history ++ more) key { challengeId, codeHash, expiresAt } := by
  rcases guarded.unused unreserved with ⟨uncompared, unaccepted⟩
  refine ⟨last, ?_, ?_, ?_⟩
  · intro active
    cases active
  · exact (comparisonsOf_append_quiet quiet).trans uncompared
  · intro _
    exact (acceptancesOf_append_quiet quiet).trans unaccepted

theorem guarded_commitReserve {reserve : Reserve} {attempts : List ℕ}
    {codes : List CodeKey} (guarded : Guarded limits store)
    (found : store.transactions[place]? = some (.reserveSwept reserve attempts codes))
    (free : store.isLocked place reserve.key = false) :
    Guarded limits (store.commitReserve limits place reserve attempts codes) := by
  have unreserved := guarded.fresh place _ reserve.challengeId found rfl
  have ended := guarded.ends found
  rw [Store.isLocked, Store.anotherOne_eq_false_iff] at free
  refine ended.writeQuiet rfl rfl ?_ ?_ ?_ ?_ ?_
  · simp [Entry.compares]
  · intro key row isRow
    simp only [Store.commitReserve, Dict.find_insert, Dict.find_eraseAll] at isRow
    split_ifs at isRow with same inCodes
    · cases isRow
      subst same
      refine guarded.tells_reserved unreserved ?_ ?_
      · simp [lastReserved, Entry.reservation?, List.filterMap_cons]
      · simp [Entry.compares]
    · refine (guarded.rows key row isRow).append ?_ ?_
      · simp [Entry.reservation?, Ne.symm same]
      · simp [Entry.compares]
  · intro other consume row isSelected
    rcases Store.setTransaction_cases found isSelected with ⟨-, same⟩ | ⟨different, earlier⟩
    · cases same
    · have notReserved : consume.key ≠ reserve.key := by
        have unlocked := free other _ earlier different
        intro same
        simp [Transaction.rowLocks, same] at unlocked
      have notSwept : consume.key ∉ codes :=
        guarded.exclusive other place _ _ consume.key earlier found (Ne.symm different)
          (by simp [Transaction.rowLocks])
      simp only [Store.commitReserve, Dict.find_insert, Dict.find_eraseAll, if_neg notReserved,
        if_neg notSwept]
      exact guarded.selected other consume row earlier
  · simp [Entry.challenge?, List.filterMap_cons]
  · intro challengeId isNew
    obtain rfl : challengeId = reserve.challengeId := by
      simpa [Entry.challenge?, List.filterMap_cons] using isNew
    simp only [Store.isFresh, Bool.and_eq_true, List.all_eq_true, decide_eq_true_eq]
    constructor
    · intro transaction member drawn
      rcases List.mem_iff_getElem?.mp member with ⟨other, isFound⟩
      rcases Store.setTransaction_cases found isFound with ⟨-, rfl⟩ | ⟨different, earlier⟩
      · cases drawn
      · exact guarded.apart place other _ transaction reserve.challengeId found earlier different
          rfl drawn
    · intro entry member reserved
      exact unreserved (List.mem_filterMap.mpr ⟨entry, member, reserved⟩)

theorem mem_of_lastReserved {challengeId codeHash : String}
    {expiresAt : ℤ} (last : lastReserved history key = some (challengeId, codeHash, expiresAt)) :
    Entry.reserved key challengeId codeHash expiresAt ∈ history := by
  rcases List.mem_filterMap.mp (List.mem_of_getLast? last) with ⟨entry, member, reserves⟩
  cases entry with
  | reserved other otherChallenge otherHash otherExpiry =>
    simp only [Entry.reservation?] at reserves
    split_ifs at reserves with same
    rcases reserves with ⟨rfl, rfl, rfl⟩
    exact same ▸ member
  | admitted attempt => cases reserves
  | swept now => cases reserves
  | activated other => cases reserves
  | compared other otherChallenge now guess ok => cases reserves

theorem Guarded.reserved_once (guarded : Guarded limits store) {key other : CodeKey}
    {challengeId codeHash otherHash : String} {expiresAt otherExpiry : ℤ}
    (first : Entry.reserved key challengeId codeHash expiresAt ∈ store.history)
    (second : Entry.reserved other challengeId otherHash otherExpiry ∈ store.history) :
    Entry.reserved key challengeId codeHash expiresAt =
      Entry.reserved other challengeId otherHash otherExpiry := by
  have symmetric : Std.Symm fun one another : Entry => ∀ left, one.challenge? = some left →
      ∀ right, another.challenge? = some right → left ≠ right :=
    ⟨fun _ _ differ left isLeft right isRight => (differ right isRight left isLeft).symm⟩
  by_contra different
  have apart := (List.pairwise_filterMap.mp guarded.distinct).forall first second different
  exact apart challengeId rfl challengeId rfl rfl

variable {consume : Consume}

section

variable (guarded : Guarded limits store)

include guarded

/-- A comparison of the row a transaction selected keeps the guard. -/
theorem Guarded.compare (isRow : store.codes.find consume.key = some row)
    (unselected : ∀ (other : ℕ) (another : Consume) (selected : CodeRow),
      store.transactions[other]? = some (.consumeSelected another (some selected)) →
      another.key ≠ consume.key) (compared : row.comparable limits consume.now = true) :
    Guarded limits { store with
      codes := store.codes.insert consume.key
        { row with
          attempts := row.attempts + 1
          consumedAt :=
            if row.codeHash = consume.codeHash then some consume.now else row.consumedAt }
      history := store.history ++
        [.compared consume.key row.challengeId consume.now consume.codeHash
          (row.codeHash = consume.codeHash)] } := by
  have tells := guarded.rows consume.key row isRow
  simp only [CodeRow.comparable, Bool.and_eq_true, decide_eq_true_eq, Option.isNone_iff_eq_none]
    at compared
  rcases compared with ⟨⟨⟨active, unexpired⟩, unconsumed⟩, attemptsLeft⟩
  have unaccepted := tells.unconsumed unconsumed
  have attempts := tells.attempts
  have compares (challengeId : String) : comparisonsOf (store.history ++
      [.compared consume.key row.challengeId consume.now consume.codeHash
        (row.codeHash = consume.codeHash)]) challengeId =
      comparisonsOf store.history challengeId + if row.challengeId = challengeId then 1 else 0 := by
    simp [comparisonsOf, List.countP_append, List.countP_cons, Entry.compares]
  have accepts (challengeId : String) : acceptancesOf (store.history ++
      [.compared consume.key row.challengeId consume.now consume.codeHash
        (row.codeHash = consume.codeHash)]) challengeId =
      acceptancesOf store.history challengeId +
        if row.challengeId = challengeId ∧ row.codeHash = consume.codeHash then 1 else 0 := by
    simp [acceptancesOf, List.countP_append, List.countP_cons, Entry.accepts]
  refine guarded.write rfl rfl ?_ ?_ ?_ ?_ ?_ ?_ ?_ ?_
  · apply rightful_concat guarded.rightful
    refine ⟨row.codeHash, row.expiresAt, tells.last, tells.active active, unexpired, ?_, unaccepted,
      attempts ▸ attemptsLeft⟩
    simp
  · intro challengeId
    rw [accepts]
    split_ifs with accepted
    · rw [← accepted.1, unaccepted]
    · exact guarded.once challengeId
  · intro challengeId
    rw [compares]
    split_ifs with compared
    · rw [← compared, attempts]
      exact attemptsLeft
    · exact guarded.bounded challengeId
  · intro key other isOther
    simp only [Dict.find_insert] at isOther
    by_cases same : key = consume.key
    · rw [if_pos same] at isOther
      cases isOther
      subst same
      refine ⟨?_, ?_, ?_, ?_⟩
      · simpa [lastReserved, Entry.reservation?, List.filterMap_cons] using tells.last
      · intro _
        exact List.mem_append_left _ (tells.active active)
      · rw [compares, attempts, if_pos rfl]
      · intro stillUnconsumed
        split_ifs at stillUnconsumed with right_
        rw [accepts, unaccepted, if_neg fun both => right_ both.2]
    · rw [if_neg same] at isOther
      have otherTells := guarded.rows key other isOther
      refine otherTells.append ?_ ?_
      · simp [Entry.reservation?]
      · simp only [List.mem_singleton, Entry.compares, forall_eq, decide_eq_false_iff_not]
        intro sameChallenge
        have reserved := mem_of_lastReserved tells.last
        have alsoReserved := mem_of_lastReserved otherTells.last
        rw [← sameChallenge] at alsoReserved
        have equal := guarded.reserved_once alsoReserved reserved
        exact same (Entry.reserved.inj equal).1
  · intro other another selected isSelected
    simp only [Dict.find_insert, if_neg (unselected other another selected isSelected)]
    exact guarded.selected other another selected isSelected
  · simp [Entry.challenge?, List.filterMap_cons]
  · simp [Entry.challenge?, List.filterMap_cons]
  · simp only [List.mem_singleton, Entry.compares, forall_eq, decide_eq_true_eq]
    rintro challengeId rfl
    exact List.mem_filterMap.mpr ⟨_, mem_of_lastReserved tells.last, rfl⟩

theorem guarded_commitConsume {row : Option CodeRow}
    (found : store.transactions[place]? = some (.consumeSelected consume row)) :
    Guarded limits (store.commitConsume limits place consume row) := by
  have counted : Guarded limits { store.setTransaction place .ended with
      attempts := store.attempts ++
        [store.newAttempt consume.key.phone consume.ip .verify consume.now]
      nextId := store.nextId + 1
      history := store.history ++
        [.admitted (store.newAttempt consume.key.phone consume.ip .verify consume.now)] } := by
    have ended := guarded.ends found
    refine ended.writeQuiet rfl rfl ?_ ?_ ended.selected ?_ ?_
    · simp [Entry.compares]
    · intro key other isRow
      refine (guarded.rows key other isRow).append ?_ ?_
      · simp [Entry.reservation?]
      · simp [Entry.compares]
    · simp [Entry.challenge?, List.filterMap_cons]
    · simp [Entry.challenge?, List.filterMap_cons]
  cases row with
  | none => exact counted
  | some row =>
    unfold Store.commitConsume
    simp only
    by_cases compared : row.comparable limits consume.now = true
    · rw [if_pos compared]
      refine counted.compare (guarded.selected place consume row found) ?_ compared
      intro other another selected isSelected sameKey
      rcases Store.setTransaction_cases found isSelected with ⟨-, same⟩ | ⟨different, earlier⟩
      · cases same
      · refine guarded.exclusive place other _ _ consume.key found earlier different ?_ ?_
        · simp [Transaction.rowLocks]
        · simp [Transaction.rowLocks, sameKey]
    · rw [if_neg compared]
      exact counted

theorem unselected_of_challengeFree (free : store.challengeFree challengeId = true)
    (isSelected : store.transactions[place]? = some (.consumeSelected consume (some row))) :
    row.challengeId ≠ challengeId := by
  have isRow := guarded.selected place consume row isSelected
  simp only [Store.challengeFree, List.all_eq_true] at free
  have unlocked := free _ (List.mem_of_getElem? isSelected) consume.key
    (by simp [Transaction.rowLocks])
  simpa [isRow] using unlocked

theorem guarded_activate {now : ℤ} (free : store.challengeFree challengeId = true) :
    Guarded limits { store with
      codes := store.codes.updateWhere
        (fun row => row.challengeId = challengeId && now < row.expiresAt &&
          row.consumedAt.isNone) fun row => { row with active := true }
      history := store.history ++ [.activated challengeId] } := by
  refine guarded.writeQuiet rfl rfl ?_ ?_ ?_ ?_ ?_
  · simp [Entry.compares]
  · intro key row isRow
    simp only [Dict.find_updateWhere, Option.map_eq_some_iff] at isRow
    rcases isRow with ⟨before, isBefore, rfl⟩
    have tells : Tells (store.history ++ [.activated challengeId]) key before := by
      refine (guarded.rows key before isBefore).append ?_ ?_
      · simp [Entry.reservation?]
      · simp [Entry.compares]
    split_ifs with matching
    · simp only [Bool.and_eq_true, decide_eq_true_eq] at matching
      refine ⟨tells.last, ?_, tells.attempts, tells.unconsumed⟩
      intro _
      simp [matching.1.1]
    · exact tells
  · intro place consume row isSelected
    have different := unselected_of_challengeFree guarded free isSelected
    simp [Dict.find_updateWhere, guarded.selected place consume row isSelected, different]
  · simp [Entry.challenge?, List.filterMap_cons]
  · simp [Entry.challenge?, List.filterMap_cons]

theorem guarded_invalidate (free : store.challengeFree challengeId = true) :
    Guarded limits { store with
      codes := store.codes.eraseAll
        (store.codes.keysWhere fun row => row.challengeId = challengeId) } := by
  refine guarded.writeQuiet rfl (List.append_nil _).symm ?_ ?_ ?_ ?_ ?_
  · simp
  · intro key row isRow
    simp only [Dict.find_eraseAll] at isRow
    split_ifs at isRow
    exact guarded.rows key row isRow
  · intro place consume row isSelected
    have isRow := guarded.selected place consume row isSelected
    have different := unselected_of_challengeFree guarded free isSelected
    simp only [Dict.find_eraseAll, Dict.mem_keysWhere_iff, isRow]
    simp [different]
  · simp
  · simp

/-- One step of any transaction keeps the guard. -/
theorem guarded_step {event : Step} {next : Store}
    (stepped : store.step limits event = some next) : Guarded limits next := by
  cases Store.stepped_of_step stepped with
  | beginReserve reserve fresh =>
    apply guarded.begin
    · rfl
    · intro _ _ same
      cases same
    · rintro challengeId ⟨rfl⟩
      exact fresh
  | beginConsume consume =>
    apply guarded.begin
    · rfl
    · intro _ _ same
      cases same
    · intro _ drawn
      cases drawn
  | admitReserve place reserve found free admits | admitConsume place consume found free admits =>
    apply guarded.move found
    · exact Or.inl rfl
    · intro _ _ same
      cases same
    · intro _ locked
      cases locked
  | sweep place reserve found free =>
    apply guarded.move found
    · exact Or.inl rfl
    · intro _ _ same
      cases same
    · intro key locked other another isOther different
      have unlocked := List.any_eq_false.mp free key locked
      rw [Bool.not_eq_true, Store.isLocked, Store.anotherOne_eq_false_iff] at unlocked
      simpa using unlocked other another isOther different
  | select place consume found free =>
    apply guarded.move found
    · exact Or.inl rfl
    · intro other row same
      simp only [Transaction.consumeSelected.injEq] at same
      rcases same with ⟨rfl, isRow⟩
      exact isRow
    · intro key locked other another isOther different
      cases isRow : store.codes.find consume.key with
      | none =>
        rw [isRow] at locked
        cases locked
      | some row =>
        rw [isRow] at locked
        obtain rfl := List.mem_singleton.mp locked
        simp only [isRow, Option.isSome_some, Bool.true_and, Store.isLocked,
          Store.anotherOne_eq_false_iff] at free
        simpa using free other another isOther different
  | commitReserve place reserve attempts codes found free =>
    exact guarded_commitReserve guarded found free
  | commitConsume place consume row found => exact guarded_commitConsume guarded found
  | ends event place transaction found => exact guarded.ends found
  | unchanged event => exact guarded
  | activate challengeId now free some_ => exact guarded_activate guarded free
  | invalidate challengeId free => exact guarded_invalidate guarded free

end

theorem guarded_initial : Guarded limits ({} : Store) where
  rightful := by simp
  once := by simp [acceptancesOf]
  bounded := by simp [comparisonsOf]
  rows := by simp
  selected := by simp
  exclusive := by simp
  distinct := by simp
  known := by simp
  fresh := by simp
  apart := by simp

theorem Guarded.noRow_of_superseded (guarded : Guarded limits store)
    (superseded : Superseded store.history challengeId)
    (isRow : store.codes.find key = some row) : row.challengeId ≠ challengeId := by
  rintro rfl
  rcases superseded with ⟨other, ⟨codeHash, expiresAt, reserved⟩, notLast⟩
  have last := (guarded.rows key row isRow).last
  have same := guarded.reserved_once reserved (mem_of_lastReserved last)
  obtain rfl := (Entry.reserved.inj same).1
  exact notLast _ _ last

theorem Guarded.singleUse (guarded : Guarded limits store) : SingleUse limits store := by
  refine ⟨guarded.rightful, guarded.once, guarded.bounded, ?_⟩
  intro challengeId now next superseded stepped
  have noKeys (test : CodeRow → Bool)
      (about : ∀ row, test row = true → row.challengeId = challengeId) :
      store.codes.keysWhere test = [] := by
    apply List.eq_nil_iff_forall_not_mem.mpr
    intro key member
    rcases Dict.mem_keysWhere_iff.mp member with ⟨row, isRow, passes⟩
    exact guarded.noRow_of_superseded superseded isRow (about row passes)
  rcases stepped with activated | invalidated
  · simp only [Store.step, Store.activatePhoneCode] at activated
    rw [noKeys _ (by simp +contextual)] at activated
    split_ifs at activated with taken
    · exact (Option.some.inj activated).symm
    · exact absurd rfl ‹_›
  · simp only [Store.step, Store.invalidatePhoneCode] at invalidated
    rw [noKeys _ (by simp)] at invalidated
    split_ifs at invalidated with taken
    exact (Option.some.inj invalidated).symm

end Guards

/-- Codes are used once along every run; the rate limits hold as well when the cooldown is at
most a day and no transaction counts more than a day behind a cleanup. -/
theorem phone_codes_single_use_and_rate_limited {limits : Limits} {events : List Step}
    {store : Store} (ran : (Store.machine limits).run {} events = some store) :
    SingleUse limits store ∧ (limits.cooldown ≤ day →
        (Store.machine limits).Along (fun store event => prompt store event = true) {} events →
        RateLimited limits store.history) := by
  constructor
  · apply Guarded.singleUse
    refine Machine.run_invariant ?_ guarded_initial ran
    intro before event after guarded stepped
    exact guarded_step guarded stepped
  · intro short along
    have paced : Paced limits store := by
      refine Machine.run_invariant_along _ ?_ paced_initial along ran
      intro before event after paced isPrompt stepped
      exact paced_step short paced isPrompt stepped
    exact paced.limited

def limitsWithCooldown (seconds : ℤ) : Limits where
  cooldown := seconds * 1000000
  expire := 300 * 1000000
  phoneHour := 5
  phoneDay := 10
  ipHour := 20
  ipDay := 100
  maxAttempts := 5
  verifyPerPhone := 10
  verifyPerIp := 30

def sendAndVerify : List Step :=
  [.beginReserve ⟨⟨"+15550100", "login", ""⟩, "c1", "h1", "198.51.100.7", 0⟩,
    .count 0, .sweep 0, .commit 0, .activate "c1" 1000000,
    .beginConsume ⟨⟨"+15550100", "login", ""⟩, "h1", "198.51.100.7", 2000000⟩,
    .beginConsume ⟨⟨"+15550100", "login", ""⟩, "h1", "198.51.100.7", 3000000⟩,
    .count 2, .select 2, .commit 2, .count 1, .select 1, .commit 1]

theorem phone_code_of_one_send_is_used_once :
    ∃ store, (Store.machine (limitsWithCooldown 60)).run {} sendAndVerify = some store ∧
      store.history.length = 7 ∧ acceptancesOf store.history "c1" = 1 ∧
      SingleUse (limitsWithCooldown 60) store ∧
      RateLimited (limitsWithCooldown 60) store.history := by
  have counted : (((Store.machine (limitsWithCooldown 60)).run {} sendAndVerify).map fun store =>
      (store.history.length, acceptancesOf store.history "c1")) = some (7, 1) := by
    decide +kernel
  rcases Option.map_eq_some_iff.mp counted with ⟨store, ran, counts⟩
  rw [Prod.mk.injEq] at counts
  have holds := phone_codes_single_use_and_rate_limited ran
  exact ⟨store, ran, counts.1, counts.2, holds.1, holds.2 (by decide) (by decide +kernel)⟩

def twoSends : List Step :=
  [.beginReserve ⟨⟨"+15550100", "login", ""⟩, "c1", "h1", "198.51.100.7", 0⟩,
    .count 0, .sweep 0, .commit 0,
    .beginReserve ⟨⟨"+15550100", "login", ""⟩, "c2", "h2", "198.51.100.7", 90000 * 1000000⟩,
    .count 1, .sweep 1, .commit 1]

/-- A cooldown longer than the day of statistics that is kept lets a second send through. -/
theorem cooldown_of_days_is_not_kept :
    ∃ store, (Store.machine (limitsWithCooldown 100000)).run {} twoSends = some store ∧
      ¬ RateLimited (limitsWithCooldown 100000) store.history := by
  have admitted : (((Store.machine (limitsWithCooldown 100000)).run {} twoSends).map fun store =>
      admittedOf store.history) = some [⟨0, "+15550100", "198.51.100.7", .send, 0⟩,
          ⟨1, "+15550100", "198.51.100.7", .send, 90000 * 1000000⟩] := by
    decide +kernel
  rcases Option.map_eq_some_iff.mp admitted with ⟨store, ran, sends⟩
  refine ⟨store, ran, ?_⟩
  intro limited
  have rested := limited.cooldown "+15550100"
  rw [sends] at rested
  revert rested
  decide +kernel

end HybridInference.Phone
