import HybridInference.Library.Dict

/-!
# Updates at the isolation level READ COMMITTED

A transaction writes beside the committed table, and its writes are laid over the
table when it commits. An `UPDATE ... WHERE` finds its rows in the snapshot that it
begins with. It then locks them one after the other, waiting for whoever holds them,
and looks again at the row it has locked: a row that no longer matches is skipped,
and a row that was inserted in the meantime is never found.
-/

namespace HybridInference.Library

universe u v

/-- An `UPDATE` or a `DELETE`: the rows that it changes, and what becomes of them. -/
structure RowUpdate (Row : Type v) where
  matching : Row → Bool
  change : Row → Option Row

namespace Dict

variable {Key : Type u} {Row : Type v} [DecidableEq Key]

def write (table : Dict Key Row) (key : Key) : Option Row → Dict Key Row
  | some row => table.insert key row
  | none => table.erase key

theorem find_write (table : Dict Key Row) (key other : Key) (row : Option Row) :
    find (table.write key row) other = if other = key then row else table.find other := by
  cases row with
  | some row => exact find_insert table key other row
  | none => exact find_erase table key other

def overlay (table : Dict Key Row) (writes : Dict Key (Option Row)) : Dict Key Row :=
  writes.entries.foldl (fun table entry => table.write entry.1 entry.2) table

theorem find_foldl_write {entries : List (Sigma fun _ : Key => Option Row)}
    (nodup : entries.NodupKeys) (table : Dict Key Row) (key : Key) :
    find (entries.foldl (fun table entry => table.write entry.1 entry.2) table) key =
      (entries.dlookup key).getD (table.find key) := by
  induction entries generalizing table with
  | nil => rfl
  | cons entry rest ih =>
    rcases entry with ⟨written, row⟩
    rw [List.nodupKeys_cons] at nodup
    rw [List.foldl_cons, ih nodup.2, find_write]
    by_cases same : key = written
    · subst same
      have notLater : rest.dlookup key = none := List.dlookup_eq_none.mpr nodup.1
      simp [notLater]
    · rw [if_neg same, List.dlookup_cons_ne _ _ same]

theorem find_overlay (table : Dict Key Row) (writes : Dict Key (Option Row)) (key : Key) :
    find (table.overlay writes) key = (writes.find key).getD (table.find key) :=
  find_foldl_write writes.nodupKeys table key

end Dict

namespace RowUpdate

variable {Key : Type u} {Row : Type v} [DecidableEq Key]

def targets (update : RowUpdate Row) (table : Dict Key Row) (writes : Dict Key (Option Row)) :
    List Key :=
  (table.overlay writes).keysWhere update.matching

theorem nodup_targets (update : RowUpdate Row) (table : Dict Key Row)
    (writes : Dict Key (Option Row)) : (update.targets table writes).Nodup :=
  (table.overlay writes).nodupKeys.filter _

def visit (update : RowUpdate Row) (table : Dict Key Row) (writes : Dict Key (Option Row))
    (key : Key) : Dict Key (Option Row) :=
  match (table.overlay writes).find key with
  | some row => if update.matching row then writes.insert key (update.change row) else writes
  | none => writes

section

variable {update : RowUpdate Row} {table : Dict Key Row} {writes : Dict Key (Option Row)}

/-- What a transaction has written after visiting one more row. -/
theorem find_visit_cases {key other : Key} {written : Option Row}
    (found : (update.visit table writes key).find other = some written) :
    writes.find other = some written ∨
      other = key ∧ ∃ row, (table.overlay writes).find key = some row ∧
        update.matching row = true ∧ written = update.change row := by
  unfold visit at found
  split at found
  next row isRow =>
    split_ifs at found with matches_
    · rw [Dict.find_insert] at found
      split_ifs at found with same
      · exact Or.inr ⟨same, row, isRow, matches_, (Option.some.inj found).symm⟩
      · exact Or.inl found
    · exact Or.inl found
  · exact Or.inl found

theorem find_visit_self {key : Key} {row : Row}
    (isRow : (table.overlay writes).find key = some row) (matches_ : update.matching row = true) :
    (update.visit table writes key).find key = some (update.change row) := by
  simp [visit, isRow, matches_, Dict.find_insert]

theorem find_visit_isSome {key other : Key}
    (written : (writes.find other).isSome = true) :
    ((update.visit table writes key).find other).isSome = true := by
  unfold visit
  split
  · split_ifs
    · rw [Dict.find_insert]
      split_ifs
      · rfl
      · exact written
    · exact written
  · exact written

end

def Covers (update : RowUpdate Row) (table : Dict Key Row) (writes : Dict Key (Option Row))
    (remaining : List Key) (scope : Row → Prop) : Prop :=
  ∀ key row, table.find key = some row → scope row → update.matching row = true →
    key ∈ remaining ∨ (writes.find key).isSome = true

variable {update : RowUpdate Row} {table : Dict Key Row} {writes : Dict Key (Option Row)}
  {scope : Row → Prop}

theorem covers_targets : update.Covers table writes (update.targets table writes) scope := by
  intro key row found _ matches_
  cases written : writes.find key with
  | some _ => exact Or.inr rfl
  | none =>
    refine Or.inl (Dict.mem_keysWhere_iff.mpr ⟨row, ?_, matches_⟩)
    rw [Dict.find_overlay, written]
    exact found

theorem Covers.visit {remaining : List Key} (covers : update.Covers table writes remaining scope)
    (key : Key) :
    update.Covers table (update.visit table writes key) (remaining.erase key) scope := by
  intro other row found inScope matches_
  rcases covers other row found inScope matches_ with member | written
  · by_cases same : other = key
    · subst same
      cases written : writes.find other with
      | some _ =>
        exact Or.inr (find_visit_isSome (by rw [written]; rfl))
      | none =>
        have isRow : (table.overlay writes).find other = some row := by
          rw [Dict.find_overlay, written]
          exact found
        exact Or.inr (by rw [find_visit_self isRow matches_]; rfl)
    · exact Or.inl ((List.mem_erase_of_ne same).mpr member)
  · exact Or.inr (find_visit_isSome written)

theorem Covers.commit {remaining : List Key} {later : Dict Key Row}
    (covers : update.Covers table writes remaining scope)
    (kept : ∀ key row, later.find key = some row → scope row → update.matching row = true →
      ∃ before, table.find key = some before ∧ scope before ∧ update.matching before = true) :
    update.Covers later writes remaining scope := by
  intro key row found inScope matches_
  rcases kept key row found inScope matches_ with ⟨before, wasFound, wasInScope, matched⟩
  exact covers key before wasFound wasInScope matched

end RowUpdate

end HybridInference.Library
