import Mathlib.Data.List.Basic
import Mathlib.Data.List.Chain

/-! # Numbered histories

A log of moves between states, each entry with its number, the state it left and the
state it reached. A legal history is built one entry at a time at its end; what can be
read off the finished log follows from that. -/

namespace Interleaving

/-- An entry of a history; the first one leaves no state. -/
structure Entry (S : Type) where
  sequence : Nat
  source : Option S
  target : S

/-- The entry that moves on from `current` at the end of a history. -/
def Entry.next {S : Type} (log : List (Entry S)) (current target : S) : Entry S :=
  ⟨log.length + 1, some current, target⟩

/-- A log that begins at `start`, follows `R` and has led to the last argument. -/
inductive LegalPath {S : Type} (R : S → S → Prop) (start : S) : List (Entry S) → S → Prop
  | created : LegalPath R start [⟨1, none, start⟩] start
  | moved {log current target} : LegalPath R start log current → R current target →
    LegalPath R start (log ++ [.next log current target]) target

namespace LegalPath

variable {S : Type} {R : S → S → Prop} {start current : S} {log : List (Entry S)}

theorem ne_nil (h : LegalPath R start log current) : log ≠ [] := by
  cases h <;> simp

theorem sequences (h : LegalPath R start log current) :
    log.map Entry.sequence = List.range' 1 log.length := by
  induction h with
  | created => rfl
  | moved hlog hR ih =>
    simp only [List.map_append, ih, List.map_cons, List.map_nil, Entry.next, List.length_append,
      List.length_cons, List.length_nil]
    rw [Nat.zero_add, List.range'_concat]
    simp [Nat.add_comm]

theorem head (h : LegalPath R start log current) : log.head? = some ⟨1, none, start⟩ := by
  induction h with
  | created => rfl
  | moved hlog hR ih => simp [List.head?_append, ih]

theorem getLast_target (h : LegalPath R start log current) :
    log.getLast?.map Entry.target = some current := by
  cases h <;> simp [Entry.next]

/-- Every entry leaves the state its predecessor reached, along an edge of `R`. -/
theorem chained (h : LegalPath R start log current) :
    log.IsChain fun before after =>
      after.source = some before.target ∧ R before.target after.target := by
  induction h with
  | created => simp
  | @moved log current target hlog hR ih =>
    rw [List.isChain_append]
    refine ⟨ih, by simp, ?_⟩
    intro before hbefore after hafter
    have hlast : before.target = current := by
      have hsome : log.getLast? = some before := hbefore
      simpa [hsome] using hlog.getLast_target
    simp only [List.head?_cons, Option.mem_def, Option.some.injEq] at hafter
    subst hafter
    rw [hlast]
    exact ⟨rfl, hR⟩

/-- Every entry but the first moves along an edge of `R`. -/
theorem edge (h : LegalPath R start log current) {entry : Entry S} (hentry : entry ∈ log)
    {source : S} (hsource : entry.source = some source) : R source entry.target := by
  induction h with
  | created =>
    have hfirst : entry = ⟨1, none, start⟩ := by simpa using hentry
    simp [hfirst] at hsource
  | moved hlog hR ih =>
    rcases List.mem_append.1 hentry with hold | hnew
    · exact ih hold
    · have hlast := List.mem_singleton.1 hnew
      subst hlast
      simp only [Entry.next, Option.some.injEq] at hsource
      subst hsource
      exact hR

theorem next_sequence (h : LegalPath R start log current) :
    (log.map Entry.sequence).foldl max 0 + 1 = log.length + 1 := by
  have hmax : ∀ n, (List.range' 1 n).foldl max 0 = n := by
    intro n
    induction n with
    | zero => rfl
    | succ n ih =>
      rw [List.range'_concat, List.foldl_append, ih]
      simp only [List.foldl_cons, List.foldl_nil]
      omega
  rw [h.sequences, hmax]

end LegalPath

end Interleaving
