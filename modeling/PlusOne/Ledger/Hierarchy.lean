import Mathlib.Data.List.Nodup
import PlusOne.Relational.Recursive

/-! # The account hierarchy

The rows of `accounting.accounts` as the hierarchy sees them, with the trigger and the constraints that an
insert or a change of parent passes. -/

namespace PlusOne

open Relational

structure HierarchyRow where
  id : Nat
  householdId : Nat
  bookId : Nat
  parentAccountId : Option Nat
  deriving DecidableEq

inductive HierarchyViolation
  | accounts_pkey | accounts_parent_fk | accounts_not_own_parent | accounts_hierarchy_acyclic | account_not_found
  deriving DecidableEq

/-- The recursive term of `ancestors`: the parent of an account in the household and book of the new row. -/
def parentsOf (accounts : List HierarchyRow) (new child : HierarchyRow) : List HierarchyRow :=
  accounts.filter fun parent => child.parentAccountId == some parent.id &&
    parent.householdId == new.householdId && parent.bookId == new.bookId

/-- `accounting.validate_account_hierarchy`: whether it lets the row pass, if its query ends within so many
rounds. -/
def validateAccountHierarchy (rounds : Nat) (accounts : List HierarchyRow) (new : HierarchyRow) : Option Bool :=
  match new.parentAccountId with
  | none => some true
  | some parentId =>
    let base := accounts.filter fun row => row.householdId == new.householdId && row.bookId == new.bookId &&
      row.id == parentId
    (withRecursive (parentsOf accounts new) rounds base).map fun ancestors =>
      !ancestors.any fun row => row.id == new.id

/-- `accounts_parent_fk` -/
def parentExists (accounts : List HierarchyRow) (row : HierarchyRow) : Bool :=
  row.parentAccountId.all fun parentId => accounts.any fun parent =>
    parent.householdId == row.householdId && parent.bookId == row.bookId && parent.id == parentId

/-- What a row passes on its way into the table: the trigger before it is written, the constraints after. -/
def writeRow (rounds : Nat) (accounts written : List HierarchyRow) (new : HierarchyRow) :
    Option (Except HierarchyViolation (List HierarchyRow)) :=
  (validateAccountHierarchy rounds accounts new).map fun valid =>
    if !valid then .error .accounts_hierarchy_acyclic
    else if new.parentAccountId = some new.id then .error .accounts_not_own_parent
    else if !parentExists written new then .error .accounts_parent_fk
    else .ok written

inductive HierarchyStatement
  | insert (row : HierarchyRow)
  | setParent (id : Nat) (parentAccountId : Option Nat)

/-- A statement, if the query of its trigger ends within so many rounds. -/
def executeStatement (rounds : Nat) (accounts : List HierarchyRow) :
    HierarchyStatement → Option (Except HierarchyViolation (List HierarchyRow))
  | .insert row =>
    if accounts.any fun other => other.id == row.id then some (.error .accounts_pkey)
    else writeRow rounds accounts (accounts ++ [row]) row
  | .setParent id parentAccountId =>
    match accounts.find? fun row => row.id == id with
    | none => some (.error .account_not_found)
    | some old =>
      let new := { old with parentAccountId }
      writeRow rounds accounts (accounts.map fun row => if row.id = id then new else row) new

/-- The tables that successful statements lead to from the empty one. -/
inductive HierarchyReachable : List HierarchyRow → Prop
  | empty : HierarchyReachable []
  | statement {accounts accounts' : List HierarchyRow} {rounds : Nat} {statement : HierarchyStatement}
      (h : HierarchyReachable accounts) (hok : executeStatement rounds accounts statement = some (.ok accounts')) :
      HierarchyReachable accounts'

/-- The second row is the parent of the first. -/
def IsParent (accounts : List HierarchyRow) (child parent : HierarchyRow) : Prop :=
  child ∈ accounts ∧ parent ∈ accounts ∧ child.parentAccountId = some parent.id

/-! ## What the trigger sees -/

variable {accounts accounts' : List HierarchyRow} {row new : HierarchyRow} {rounds : Nat} {rank : Nat → Nat}

/-- Every parent is an account of the same household and book, and the rank falls from every account to its
parent. -/
structure Forest (accounts : List HierarchyRow) (rank : Nat → Nat) : Prop where
  distinct : (accounts.map HierarchyRow.id).Nodup
  parents : ∀ child ∈ accounts, ∀ parentId, child.parentAccountId = some parentId → ∃ parent ∈ accounts,
    parent.id = parentId ∧ parent.householdId = child.householdId ∧ parent.bookId = child.bookId
  falls : ∀ child ∈ accounts, ∀ parentId, child.parentAccountId = some parentId → rank parentId < rank child.id

theorem mem_parentsOf {child parent : HierarchyRow} : parent ∈ parentsOf accounts new child ↔ parent ∈ accounts ∧
    child.parentAccountId = some parent.id ∧ parent.householdId = new.householdId ∧ parent.bookId = new.bookId := by
  simp [parentsOf, and_assoc]

/-- In a forest the query of the trigger ends, whatever the row. -/
theorem Forest.validate_ends (h : Forest accounts rank) (new : HierarchyRow) :
    ∃ rounds valid, validateAccountHierarchy rounds accounts new = some valid := by
  unfold validateAccountHierarchy
  cases new.parentAccountId with
  | none => exact ⟨0, true, rfl⟩
  | some parentId =>
    have hends : ∃ found, withRecursive (parentsOf accounts new) (rank parentId + 1)
        (accounts.filter fun row => row.householdId == new.householdId && row.bookId == new.bookId &&
          row.id == parentId) = some found := by
      apply withRecursive_ends (P := fun row => row ∈ accounts) fun row => rank row.id
      · intro child hchild parent hparent
        obtain ⟨hmem, hid, -⟩ := mem_parentsOf.1 hparent
        exact ⟨hmem, h.falls child hchild parent.id hid⟩
      · intro row hrow
        simp only [List.mem_filter, Bool.and_eq_true, beq_iff_eq] at hrow
        rw [hrow.2.2]
        exact ⟨hrow.1, Nat.lt_succ_self _⟩
    obtain ⟨found, hfound⟩ := hends
    simp only [hfound, Option.map_some]
    exact ⟨rank parentId + 1, _, by rw [hfound]; rfl⟩

/-- One account is the parent of the other, as identifiers. -/
def IdEdge (accounts : List HierarchyRow) (childId parentId : Nat) : Prop :=
  ∃ child ∈ accounts, child.id = childId ∧ child.parentAccountId = some parentId

/-- The query follows the identifiers, since every parent is in the household and book of its child. -/
theorem Forest.rows_of_ids (h : Forest accounts rank) {id ancestorId : Nat}
    (hpath : Relation.ReflTransGen (IdEdge accounts) id ancestorId) (hrow : row ∈ accounts) (hid : row.id = id)
    (hscope : row.householdId = new.householdId ∧ row.bookId = new.bookId) :
    ∃ ancestor, ancestor.id = ancestorId ∧
      Relation.ReflTransGen (fun row other => other ∈ parentsOf accounts new row) row ancestor := by
  induction hpath using Relation.ReflTransGen.head_induction_on generalizing row with
  | refl => exact ⟨row, hid, .refl⟩
  | @head id parentId hedge _ ih =>
    obtain ⟨child, hchild, hchildId, hparentId⟩ := hedge
    obtain rfl : child = row := List.inj_on_of_nodup_map h.distinct hchild hrow (hchildId.trans hid.symm)
    obtain ⟨parent, hparent, rfl, hhousehold, hbook⟩ := h.parents child hrow parentId hparentId
    have hscope' : parent.householdId = new.householdId ∧ parent.bookId = new.bookId :=
      ⟨hhousehold.trans hscope.1, hbook.trans hscope.2⟩
    obtain ⟨ancestor, hancestor, hreach⟩ := ih hparent rfl hscope'
    exact ⟨ancestor, hancestor, .head (mem_parentsOf.2 ⟨hparent, hparentId, hscope'⟩) hreach⟩

/-- A row the trigger lets pass is not above its new parent. -/
theorem Forest.not_above (h : Forest accounts rank)
    (hvalid : validateAccountHierarchy rounds accounts new = some true) {parentId : Nat}
    (hparentId : new.parentAccountId = some parentId) (hrow : row ∈ accounts) (hid : row.id = parentId)
    (hscope : row.householdId = new.householdId ∧ row.bookId = new.bookId) :
    ¬Relation.ReflTransGen (IdEdge accounts) parentId new.id := by
  intro hpath
  simp only [validateAccountHierarchy, hparentId, Option.map_eq_some_iff, Bool.not_eq_true',
    List.any_eq_false, beq_iff_eq] at hvalid
  obtain ⟨found, hfound, hnone⟩ := hvalid
  obtain ⟨ancestor, hancestor, hreach⟩ := h.rows_of_ids hpath hrow hid hscope
  have hbase : row ∈ accounts.filter fun row => row.householdId == new.householdId && row.bookId == new.bookId &&
      row.id == parentId := by
    simp [hrow, hid, hscope]
  exact hnone ancestor (mem_of_reaches hfound hbase hreach) hancestor

/-! ## What a statement keeps -/

theorem writeRow_ok {written : List HierarchyRow} (h : writeRow rounds accounts written new = some (.ok accounts')) :
    accounts' = written ∧ validateAccountHierarchy rounds accounts new = some true ∧
      new.parentAccountId ≠ some new.id ∧ ∀ parentId, new.parentAccountId = some parentId → ∃ parent ∈ written,
        parent.id = parentId ∧ parent.householdId = new.householdId ∧ parent.bookId = new.bookId := by
  simp only [writeRow, Option.map_eq_some_iff] at h
  obtain ⟨valid, hvalid, h⟩ := h
  split at h
  · cases h
  · next htrue =>
    split at h
    · cases h
    · next hself =>
      split at h
      · cases h
      · next hexists =>
        cases h
        have hvalid' : valid = true := by simpa using htrue
        subst hvalid'
        refine ⟨rfl, hvalid, hself, ?_⟩
        intro parentId hparentId
        simp only [parentExists, hparentId, Option.all_some, Bool.not_eq_true, Bool.not_eq_false',
          List.any_eq_true, Bool.and_eq_true, beq_iff_eq] at hexists
        obtain ⟨parent, hparent, ⟨hhousehold, hbook⟩, hid⟩ := hexists
        exact ⟨parent, hparent, hid, hhousehold, hbook⟩

/-- A new account is put above its parent; no account has it as its parent yet. -/
theorem Forest.insert (h : Forest accounts rank) (hfresh : ∀ other ∈ accounts, other.id ≠ new.id)
    (hself : new.parentAccountId ≠ some new.id)
    (hparent : ∀ parentId, new.parentAccountId = some parentId → ∃ parent ∈ accounts ++ [new],
      parent.id = parentId ∧ parent.householdId = new.householdId ∧ parent.bookId = new.bookId) :
    ∃ rank', Forest (accounts ++ [new]) rank' := by
  refine ⟨fun id => if id = new.id then (new.parentAccountId.map fun parentId => rank parentId + 1).getD 0
    else rank id, ?_, ?_, ?_⟩
  · rw [List.map_append, List.nodup_append]
    refine ⟨h.distinct, by simp, ?_⟩
    intro id hid id' hid' heq
    obtain ⟨other, hother, rfl⟩ := List.mem_map.1 hid
    have hnew : id' = new.id := by simpa using hid'
    exact hfresh other hother (heq.trans hnew)
  · intro child hchild parentId hparentId
    rcases List.mem_append.1 hchild with hold | hnew
    · obtain ⟨parent, hmem, hrest⟩ := h.parents child hold parentId hparentId
      exact ⟨parent, List.mem_append_left _ hmem, hrest⟩
    · obtain rfl : child = new := by simpa using hnew
      exact hparent parentId hparentId
  · intro child hchild parentId hparentId
    rcases List.mem_append.1 hchild with hold | hnew
    · obtain ⟨parent, hmem, rfl, -⟩ := h.parents child hold parentId hparentId
      rw [if_neg (hfresh child hold), if_neg (hfresh parent hmem)]
      exact h.falls child hold parent.id hparentId
    · obtain rfl : child = new := by simpa using hnew
      have hne : parentId ≠ child.id := fun heq => hself (by rw [hparentId, heq])
      rw [if_neg hne, if_pos rfl, hparentId]
      simp

/-- The rows with the parent of one of them changed. -/
def withParent (accounts : List HierarchyRow) (new : HierarchyRow) : List HierarchyRow :=
  accounts.map fun row => if row.id = new.id then new else row

theorem mem_withParent (hrow : row ∈ withParent accounts new) : row = new ∨ row ∈ accounts ∧ row.id ≠ new.id := by
  obtain ⟨old, hold, rfl⟩ := List.mem_map.1 hrow
  by_cases hid : old.id = new.id
  · exact Or.inl (by rw [if_pos hid])
  · rw [if_neg hid]
    exact Or.inr ⟨hold, hid⟩

open Classical in
/-- The account goes above its new parent with all that is below it. -/
theorem Forest.setParent (h : Forest accounts rank) {old : HierarchyRow} (hold : old ∈ accounts)
    {parentAccountId : Option Nat}
    (hvalid : validateAccountHierarchy rounds accounts { old with parentAccountId } = some true)
    (hparent : ∀ parentId, parentAccountId = some parentId → ∃ parent ∈ withParent accounts { old with parentAccountId },
      parent.id = parentId ∧ parent.householdId = old.householdId ∧ parent.bookId = old.bookId) :
    ∃ rank', Forest (withParent accounts { old with parentAccountId }) rank' := by
  have hids : (withParent accounts { old with parentAccountId }).map HierarchyRow.id = accounts.map HierarchyRow.id := by
    rw [withParent, List.map_map]
    apply List.map_congr_left
    intro row _
    by_cases hid : row.id = old.id <;> simp [hid]
  -- the row of every account is still there, in its household and book
  have hkept : ∀ row ∈ accounts, ∃ row' ∈ withParent accounts { old with parentAccountId },
      row'.id = row.id ∧ row'.householdId = row.householdId ∧ row'.bookId = row.bookId := by
    intro row hrow
    by_cases hid : row.id = old.id
    · obtain rfl : row = old := List.inj_on_of_nodup_map h.distinct hrow hold hid
      exact ⟨{ row with parentAccountId }, List.mem_map.2 ⟨row, hrow, by simp⟩, rfl, rfl, rfl⟩
    · exact ⟨row, List.mem_map.2 ⟨row, hrow, by simp [hid]⟩, rfl, rfl, rfl⟩
  have hback : ∀ row ∈ withParent accounts { old with parentAccountId }, ∃ row' ∈ accounts,
      row'.id = row.id ∧ row'.householdId = row.householdId ∧ row'.bookId = row.bookId := by
    intro row hrow
    rcases mem_withParent hrow with rfl | ⟨hmem, -⟩
    · exact ⟨old, hold, rfl, rfl, rfl⟩
    · exact ⟨row, hmem, rfl, rfl, rfl⟩
  have habove : ∀ parentId, parentAccountId = some parentId →
      ¬Relation.ReflTransGen (IdEdge accounts) parentId old.id := by
    intro parentId hparentId
    obtain ⟨parent, hmem, hid, hscope⟩ := hparent parentId hparentId
    obtain ⟨row, hrow, hrowId, hhousehold, hbook⟩ := hback parent hmem
    exact h.not_above hvalid hparentId hrow (hrowId.trans hid) ⟨hhousehold.trans hscope.1, hbook.trans hscope.2⟩
  refine ⟨fun id => if Relation.ReflTransGen (IdEdge accounts) id old.id then
    rank id + (parentAccountId.map fun parentId => rank parentId + 1).getD 0 else rank id, ?_, ?_, ?_⟩
  · rw [hids]
    exact h.distinct
  · intro child hchild parentId hparentId
    rcases mem_withParent hchild with rfl | ⟨hmem, -⟩
    · exact hparent parentId hparentId
    · obtain ⟨parent, hparentMem, hid, hscope⟩ := h.parents child hmem parentId hparentId
      obtain ⟨parent', hmem', hid', hhousehold, hbook⟩ := hkept parent hparentMem
      exact ⟨parent', hmem', hid'.trans hid, hhousehold.trans hscope.1, hbook.trans hscope.2⟩
  · intro child hchild parentId hparentId
    rcases mem_withParent hchild with rfl | ⟨hmem, hne⟩
    · have hnew : parentAccountId = some parentId := hparentId
      rw [if_neg (habove parentId hnew), if_pos .refl, hnew]
      simp
      omega
    · have hfalls := h.falls child hmem parentId hparentId
      have hedge : IdEdge accounts child.id parentId := ⟨child, hmem, rfl, hparentId⟩
      by_cases hbelow : Relation.ReflTransGen (IdEdge accounts) parentId old.id
      · rw [if_pos hbelow, if_pos (.head hedge hbelow)]
        omega
      · have hchildNot : ¬Relation.ReflTransGen (IdEdge accounts) child.id old.id := by
          intro hpath
          rcases Relation.ReflTransGen.cases_head hpath with heq | ⟨next, ⟨row, hrow, hrowId, hrowParent⟩, hrest⟩
          · exact hne heq
          · obtain rfl : row = child := List.inj_on_of_nodup_map h.distinct hrow hmem hrowId
            obtain rfl : parentId = next := Option.some.inj (hparentId.symm.trans hrowParent)
            exact hbelow hrest
        rw [if_neg hbelow, if_neg hchildNot]
        exact hfalls

theorem Forest.statement (h : Forest accounts rank) {statement : HierarchyStatement}
    (hok : executeStatement rounds accounts statement = some (.ok accounts')) : ∃ rank', Forest accounts' rank' := by
  cases statement with
  | insert row =>
    simp only [executeStatement] at hok
    split at hok
    · cases hok
    · next hfresh =>
      simp only [List.any_eq_true, beq_iff_eq, not_exists, not_and] at hfresh
      obtain ⟨rfl, -, hself, hparent⟩ := writeRow_ok hok
      exact h.insert hfresh hself hparent
  | setParent id parentAccountId =>
    simp only [executeStatement] at hok
    split at hok
    · cases hok
    · next old hfind =>
      obtain ⟨rfl, hvalid, -, hparent⟩ := writeRow_ok hok
      have hid : old.id = id := by simpa using List.find?_some hfind
      subst hid
      exact h.setParent (List.mem_of_find?_eq_some hfind) hvalid hparent

theorem HierarchyReachable.forest (h : HierarchyReachable accounts) : ∃ rank, Forest accounts rank := by
  induction h with
  | empty => exact ⟨fun _ => 0, by simp, by simp, by simp⟩
  | statement _ hok ih =>
    obtain ⟨rank, hforest⟩ := ih
    exact hforest.statement hok

theorem Forest.falls_above (h : Forest accounts rank) {child ancestor : HierarchyRow}
    (hpath : Relation.TransGen (IsParent accounts) child ancestor) : rank ancestor.id < rank child.id := by
  induction hpath with
  | single hparent => exact h.falls _ hparent.1 _ hparent.2.2
  | tail _ hparent ih => exact Nat.lt_trans (h.falls _ hparent.1 _ hparent.2.2) ih

/-- In every table that statements lead to no account is its own ancestor, every parent is an account of the
same household and book, and the query that the trigger runs for a row ends, whatever the row. -/
theorem account_hierarchy_forest (h : HierarchyReachable accounts) :
    (∀ row ∈ accounts, ¬Relation.TransGen (IsParent accounts) row row) ∧
      (∀ child ∈ accounts, ∀ parentId, child.parentAccountId = some parentId → ∃ parent ∈ accounts,
        parent.id = parentId ∧ parent.householdId = child.householdId ∧ parent.bookId = child.bookId) ∧
      ∀ new, ∃ rounds valid, validateAccountHierarchy rounds accounts new = some valid := by
  obtain ⟨rank, hforest⟩ := h.forest
  refine ⟨?_, hforest.parents, hforest.validate_ends⟩
  intro row _ hpath
  exact Nat.lt_irrefl _ (hforest.falls_above hpath)

/-- Two accounts, the second below the first; the first cannot be put below the second. -/
theorem account_hierarchy_forest_two :
    executeStatement 2 [⟨1, 7, 8, none⟩, ⟨2, 7, 8, some 1⟩] (.setParent 1 (some 2)) =
        some (.error .accounts_hierarchy_acyclic) ∧
      ¬Relation.TransGen (IsParent [⟨1, 7, 8, none⟩, ⟨2, 7, 8, some 1⟩]) ⟨2, 7, 8, some 1⟩ ⟨2, 7, 8, some 1⟩ := by
  have hone : executeStatement 2 [] (.insert ⟨1, 7, 8, none⟩) = some (.ok [⟨1, 7, 8, none⟩]) := by decide
  have htwo : executeStatement 2 [⟨1, 7, 8, none⟩] (.insert ⟨2, 7, 8, some 1⟩) =
      some (.ok [⟨1, 7, 8, none⟩, ⟨2, 7, 8, some 1⟩]) := by decide
  constructor
  · decide
  · exact (account_hierarchy_forest (.statement (.statement .empty hone) htwo)).1 ⟨2, 7, 8, some 1⟩ (by decide)

end PlusOne
