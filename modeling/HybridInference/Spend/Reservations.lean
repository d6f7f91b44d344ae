import HybridInference.Spend.Window

/-!
# The reservations in flight

The two tables of reserved amounts are sums over the reservations that are open,
by user and by key. Only a gate that admits and a release change them, and each
changes the sums by its own reservation.
-/

namespace HybridInference.Spend

open Library

namespace Reservation

def ofUser (userId : String) (reservation : Reservation) : Bool :=
  reservation.isOpen && reservation.userId = userId

def ofKey (key : ℤ) (reservation : Reservation) : Bool :=
  reservation.isOpen && reservation.keyId = some key

def against (check : SpendCheck) (limit : Limit) (reservation : Reservation) : Bool :=
  reservation.isOpen && match limit with
    | .accountDay | .accountMonth => reservation.userId = check.userId
    | .keyDay | .keyMonth => check.keyId.isSome && reservation.keyId = check.keyId

end Reservation

namespace SpendLedger

variable {Who : Type} [DecidableEq Who] {table : Dict Who CountedSum}
  {chosen : Who → Reservation → Bool} {reservations : List Reservation}

theorem find_addReserved (table : Dict Who CountedSum) (who other : Who) (amount : ℚ) :
    (addReserved table who amount).find other =
      if other = who then some (((table.find who).getD {}).add amount) else table.find other :=
  Dict.find_insert table who other _

theorem find_removeReserved (table : Dict Who CountedSum) (who other : Who) (amount : ℚ) :
    (removeReserved table who amount).find other =
      if other = who then (table.find who).bind fun entry => (entry.remove amount 1).entry
      else table.find other := by
  unfold removeReserved
  split
  · rename_i absent
    split_ifs with same
    · rw [same, absent, Option.bind_none]
    · rfl
  · rename_i entry found
    rw [found, Option.bind_some]
    by_cases last : entry.count - 1 ≤ 0
    · have empty : (entry.remove amount 1).entry = none := if_pos last
      rw [if_pos last, empty, Dict.find_erase]
    · have left : (entry.remove amount 1).entry = some (entry.remove amount 1) := if_neg last
      rw [if_neg last, left, Dict.find_insert]

def Tabulates (table : Dict Who CountedSum) (chosen : Who → Reservation → Bool)
    (reservations : List Reservation) : Prop :=
  ∀ who, table.find who = (CountedSum.of (chosen who) Reservation.amount reservations).entry

section

variable (tabulates : Tabulates table chosen reservations)

include tabulates

theorem Tabulates.getD_find (who : Who) :
    (table.find who).getD {} = CountedSum.of (chosen who) Reservation.amount reservations := by
  rw [tabulates who]
  exact CountedSum.getD_entry_of

theorem Tabulates.add (who : Who)
    (reservation : Reservation) (isOf : ∀ other, chosen other reservation = decide (other = who)) :
    Tabulates (addReserved table who reservation.amount) chosen
      (reservations ++ [reservation]) := by
  intro other
  rw [find_addReserved]
  split_ifs with same
  · subst same
    rw [tabulates, CountedSum.of_append_chosen (by simp [isOf]),
      CountedSum.entry_add _ CountedSum.of_count_nonneg CountedSum.of_eq_zero]
  · rw [tabulates, CountedSum.of_append_other (by simp [isOf, same])]

theorem Tabulates.append_other
    (reservation : Reservation) (ofNone : ∀ other, chosen other reservation = false) :
    Tabulates table chosen (reservations ++ [reservation]) := by
  intro other
  rw [tabulates, CountedSum.of_append_other (ofNone other)]

end

variable {reservation closed : Reservation}

theorem Tabulates.remove (tabulates : Tabulates table chosen reservations) {who : Who} {index : ℕ}
    (found : reservations[index]? = some reservation)
    (isOf : ∀ other, chosen other reservation = decide (other = who))
    (ofNone : ∀ other, chosen other closed = false) :
    Tabulates (removeReserved table who reservation.amount) chosen
      (reservations.set index closed) := by
  intro other
  rw [find_removeReserved]
  split_ifs with same
  · subst same
    rw [tabulates, CountedSum.entry_remove _ _ (by omega),
      CountedSum.of_set_chosen found (by simp [isOf]) (ofNone other)]
  · rw [tabulates, CountedSum.of_set_other found (by simp [isOf, same]) (ofNone other)]

theorem Tabulates.set_other (tabulates : Tabulates table chosen reservations) {index : ℕ}
    (found : reservations[index]? = some reservation)
    (before : ∀ other, chosen other reservation = false)
    (after : ∀ other, chosen other closed = false) :
    Tabulates table chosen (reservations.set index closed) := by
  intro other
  rw [tabulates, CountedSum.of_set_other found (before other) (after other)]

end SpendLedger

namespace SpendWorld

variable {world next : SpendWorld}

structure Reserved (world : SpendWorld) : Prop where
  users : SpendLedger.Tabulates world.ledger.reservedUsers Reservation.ofUser world.reservations
  keys : SpendLedger.Tabulates world.ledger.reservedKeys Reservation.ofKey world.reservations

theorem Reserved.fresh : Reserved {} where
  users _ := rfl
  keys _ := rfl

theorem Reserved.of_same (reserved : Reserved world) (same : SameReservations world next) :
    Reserved next := by
  refine ⟨?_, ?_⟩
  · rw [same.users, same.reservations]
    exact reserved.users
  · rw [same.keys, same.reservations]
    exact reserved.keys

theorem Reserved.admitRequest (reserved : Reserved world) (check : SpendCheck) (amount : ℚ)
    (today : Day) (now : ℚ) : Reserved (world.admitRequest check amount today now) := by
  unfold SpendWorld.admitRequest SpendLedger.admitRequest
  dsimp only
  cases world.ledger.refusal check today now with
  | some refusal => exact reserved.of_same ⟨rfl, rfl, rfl⟩
  | none =>
    let reservation : Reservation :=
      { userId := check.userId, keyId := check.keyId, amount := amount }
    refine ⟨?_, ?_⟩
    · refine reserved.users.add check.userId reservation ?_
      intro other
      simp [reservation, Reservation.ofUser, eq_comm]
    · dsimp only
      split
      · rename_i absent
        refine reserved.keys.append_other reservation ?_
        intro other
        simp [reservation, Reservation.ofKey, absent]
      · rename_i key keyed
        refine reserved.keys.add key reservation ?_
        intro other
        simp [reservation, Reservation.ofKey, keyed, eq_comm]

theorem Reserved.release (reserved : Reserved world) {index : ℕ} {reservation : Reservation}
    (found : world.reservations[index]? = some reservation) :
    Reserved (world.release index reservation) := by
  unfold SpendWorld.release
  split_ifs with opened
  · refine ⟨?_, ?_⟩
    · apply reserved.users.remove found
      · intro other
        simp [Reservation.ofUser, opened, eq_comm]
      · intro other
        simp [Reservation.ofUser]
    · dsimp only [SpendLedger.unreserve]
      cases keyed : reservation.keyId with
      | none =>
        apply reserved.keys.set_other found
        · intro other
          simp [Reservation.ofKey, keyed]
        · intro other
          simp [Reservation.ofKey]
      | some key =>
        apply reserved.keys.remove found
        · intro other
          simp [Reservation.ofKey, keyed, opened, eq_comm]
        · intro other
          simp [Reservation.ofKey]
  · exact reserved

/-- One step keeps the reserved sums. -/
theorem Reserved.step {opening : SpendCheck → Limit → ℚ} {event : SpendEvent}
    (reserved : Reserved world) (stepped : world.step opening event = some next) :
    Reserved next := by
  have effect := effect_of_step stepped
  cases stepped_of_step opening stepped with
  | admitRequest amount today found later =>
    exact reserved.admitRequest _ amount today _
  | release found =>
    exact reserved.release found
  | _ => exact reserved.of_same (effect.reservations rfl)

theorem Reserved.reservedFor (reserved : Reserved world) (check : SpendCheck) (limit : Limit) :
    world.ledger.reservedFor check.userId check.keyId limit =
      tally (fun reservation : Reservation =>
        if reservation.against check limit then reservation.amount else 0) world.reservations := by
  have account : ((world.ledger.reservedUsers.find check.userId).getD {}).total =
      tally (fun reservation : Reservation =>
        if reservation.ofUser check.userId then reservation.amount else 0) world.reservations := by
    rw [reserved.users.getD_find]
    rfl
  have key : world.ledger.reservedFor check.userId check.keyId .keyDay =
      tally (fun reservation : Reservation =>
        if reservation.isOpen && (check.keyId.isSome && reservation.keyId = check.keyId) then
          reservation.amount
        else 0) world.reservations := by
    cases check.keyId with
    | none =>
      symm
      apply tally_eq_zero
      intro reservation _
      simp
    | some key =>
      dsimp only [SpendLedger.reservedFor]
      rw [reserved.keys.getD_find]
      rfl
  cases limit with
  | accountDay => exact account
  | accountMonth => exact account
  | keyDay => exact key
  | keyMonth => exact key

end SpendWorld

end HybridInference.Spend
