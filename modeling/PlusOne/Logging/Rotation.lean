import PlusOne.Logging.Renaming
import PlusOne.Transitions.Runs

/-! # What rotation keeps

Writes one after another, appends that fail with some of their bytes in the file, and processes that
start again. -/

namespace PlusOne

open Files FileSink

/-! ## Runs -/

/-- A sink after a run: the last clock reading, the records whose write has resolved, and what the oldest
backup held each time it was rotated out. -/
structure SinkHistory where
  sink : FileSink
  clock : ℕ
  resolved : List Bytes
  rotatedOut : List Bytes

inductive SinkEvent
  | write (record : LogEnvelopeV1) (now : ℕ) (outcome : AppendOutcome)
  | restart

namespace SinkHistory

def initial : SinkHistory := ⟨.initial, 0, [], []⟩

/-- The oldest backup, when the write of a record rotates it out. -/
def oldestOut (F : LogFormats) (O : FileSinkOptions) (record : LogEnvelopeV1) (files : SinkFiles Bytes) : List Bytes :=
  match serializeLogEnvelope F record with
  | some line => if rotates O line.length files then (files.lookup (.backup O.backupCount)).toList else []
  | none => []

/-- The clock never goes back. -/
def step (F : LogFormats) (O : FileSinkOptions) (h : SinkHistory) : SinkEvent → Option SinkHistory
  | .restart => some { h with sink := h.sink.restart }
  | .write record now outcome =>
    if now < h.clock then none
    else
      let written := h.sink.write F O record now outcome
      some { sink := written.1
             clock := now
             resolved := h.resolved ++ if written.2 then (envelopeText F record).toList else []
             rotatedOut := h.rotatedOut ++ oldestOut F O record (ensureReady F now h.sink).files }

end SinkHistory

/-! ## What a run is to keep -/

/-- A file of the sink's, by its place, or one that was rotated out; and the records it keeps. -/
structure Generation where
  place : Option SinkPath
  content : Bytes
  kept : List Bytes

/-- The order of age, where the names of the files tell it: what was rotated out is before the backups, a
backup before those of lower numbers, and the active file last. -/
def MayPrecede : Option SinkPath → Option SinkPath → Prop
  | some .active, _ => False
  | some (.backup index), some (.backup index') => index' < index
  | some (.backup _), none => False
  | _, _ => True

/-- The files and those rotated out hold the resolved records as whole lines, in the order of writing. -/
structure KeptIn (stored : SinkPath → Option Bytes) (resolved rotatedOut : List Bytes) (gens : List Generation) :
    Prop where
  records : gens.flatMap Generation.kept = resolved
  whole : ∀ g ∈ gens, g.kept.Sublist (wholeLines lineFeed g.content)
  files : ∀ path content, stored path = some content ↔ ∃ g ∈ gens, g.place = some path ∧ g.content = content
  once : (gens.filterMap Generation.place).Nodup
  out : (gens.filter fun g => g.place.isNone).map Generation.content = rotatedOut
  order : gens.Pairwise fun g g' => MayPrecede g.place g'.place

/-- Each record whose write resolved is a whole line of one file, in order, unless its file was rotated
out as the oldest backup; the backups are bounded, and the active file is, but for a single record. -/
structure KeepsRecords (F : LogFormats) (O : FileSinkOptions) (h : SinkHistory) : Prop where
  kept : ∃ gens, KeptIn h.sink.files.lookup h.resolved h.rotatedOut gens
  backups : ∀ index, h.sink.files.lookup (.backup index) ≠ none → 1 ≤ index ∧ index ≤ O.backupCount
  size : ∀ content, h.sink.files.lookup .active = some content → O.maxBytes < content.length →
    ∃ record line, serializeLogEnvelope F record = some line ∧ content <+: line

/-! ## Generations -/

section Lists

variable {α β : Type} {l : List α} {p q : α → Bool}

/-- When no element of one kind comes before one of the other, each kind can be taken by itself. -/
theorem filter_or_eq_append (hdisjoint : ∀ a, p a = true → q a = false)
    (h : l.Pairwise fun a b => p a = true → q b = false) :
    l.filter (fun a => q a || p a) = l.filter q ++ l.filter p := by
  induction l with
  | nil => rfl
  | cons a l ih =>
    obtain ⟨hhead, htail⟩ := List.pairwise_cons.1 h
    have hrest := ih htail
    cases hp : p a with
    | false =>
      cases hq : q a with
      | false => simp [hp, hq, hrest]
      | true => simp [hp, hq, hrest]
    | true =>
      have hnone : l.filter q = [] := List.filter_eq_nil_iff.2 fun b hb => by simp [hhead b hb hp]
      rw [hnone, List.nil_append] at hrest
      simp [hp, hdisjoint a hp, hrest, hnone]

theorem filter_eq_singleton {f : α → Option β} [DecidableEq β] {a : α} {b : β} (hnodup : (l.filterMap f).Nodup)
    (ha : a ∈ l) (hb : f a = some b) : l.filter (fun c => f c = some b) = [a] := by
  induction l with
  | nil => simp at ha
  | cons c l ih =>
    cases hc : f c with
    | none =>
      rw [List.filterMap_cons_none hc] at hnodup
      have hne : a ≠ c := fun heq => by simp [← heq, hb] at hc
      have hmem := (List.mem_cons.1 ha).resolve_left hne
      simp [hc, ih hnodup hmem]
    | some b' =>
      rw [List.filterMap_cons_some hc, List.nodup_cons] at hnodup
      obtain ⟨hnot, hnodup⟩ := hnodup
      by_cases hsame : b' = b
      · subst hsame
        have hnone : l.filter (fun c => f c = some b') = [] := by
          apply List.filter_eq_nil_iff.2
          intro d hd
          simp only [decide_eq_true_eq]
          exact fun heq => hnot (List.mem_filterMap.2 ⟨d, hd, heq⟩)
        have heq : a = c := by
          rcases List.mem_cons.1 ha with heq | hmem
          · exact heq
          · exact absurd (List.mem_filterMap.2 ⟨a, hmem, hb⟩) hnot
        simp [hc, hnone, heq]
      · have hne : a ≠ c := fun heq => hsame (Option.some.inj (by rw [← hc, ← heq, hb]))
        have hmem := (List.mem_cons.1 ha).resolve_left hne
        simp [hc, hsame, ih hnodup hmem]

end Lists

namespace KeptIn

variable {stored stored' : SinkPath → Option Bytes} {resolved rotatedOut : List Bytes} {gens : List Generation}
  {content : Bytes}

/-- The active file is the last. -/
theorem active_last (h : KeptIn stored resolved rotatedOut gens) (hactive : stored .active = some content) :
    ∃ older kept, gens = older ++ [⟨some .active, content, kept⟩] ∧ ∀ g ∈ older, g.place ≠ some .active := by
  obtain ⟨g, hg, hplace, hcontent⟩ := (h.files .active content).1 hactive
  obtain ⟨older, newer, rfl⟩ := List.append_of_mem hg
  have horder := h.order
  rw [List.pairwise_append, List.pairwise_cons] at horder
  obtain ⟨_, ⟨hafter, _⟩, _⟩ := horder
  have hlast : newer = [] := by
    apply List.eq_nil_iff_forall_not_mem.2
    intro g' hg'
    have hprecedes := hafter g' hg'
    rw [hplace] at hprecedes
    exact hprecedes
  subst hlast
  have honce := h.once
  rw [List.filterMap_append, List.filterMap_cons_some hplace, List.nodup_append] at honce
  obtain ⟨place, c, kept⟩ := g
  cases hplace
  cases hcontent
  refine ⟨older, kept, rfl, ?_⟩
  intro g' hg' hsame
  exact honce.2.2 _ (List.mem_filterMap.2 ⟨g', hg', hsame⟩) _ (by simp) rfl

theorem of_stored_eq (h : KeptIn stored resolved rotatedOut gens) (heq : ∀ path, stored' path = stored path) :
    KeptIn stored' resolved rotatedOut gens := by
  rwa [show stored' = stored from funext heq]

/-- More bytes in the active file, with the records they complete. -/
theorem append (h : KeptIn stored resolved rotatedOut gens) (hactive : stored .active = some content)
    {more : Bytes} {added : List Bytes}
    (hwhole : ∀ kept : List Bytes, kept.Sublist (wholeLines lineFeed content) →
      (kept ++ added).Sublist (wholeLines lineFeed (content ++ more)))
    (hstored : ∀ path, stored' path = if path = .active then some (content ++ more) else stored path) :
    ∃ gens', KeptIn stored' (resolved ++ added) rotatedOut gens' := by
  obtain ⟨older, kept, rfl, hothers⟩ := h.active_last hactive
  refine ⟨older ++ [⟨some .active, content ++ more, kept ++ added⟩], ?_⟩
  constructor
  case records =>
    have hrecords := h.records
    rw [List.flatMap_append, List.flatMap_singleton] at hrecords
    rw [List.flatMap_append, List.flatMap_singleton, ← List.append_assoc, hrecords]
  case whole =>
    intro g hg
    rcases List.mem_append.1 hg with hg | hg
    · exact h.whole g (List.mem_append_left _ hg)
    · obtain rfl := List.mem_singleton.1 hg
      exact hwhole kept (h.whole ⟨some .active, content, kept⟩ (by simp))
  case files =>
    intro path c
    have hfiles := h.files path c
    rw [hstored]
    by_cases hpath : path = .active
    · rw [if_pos hpath, hpath, Option.some.injEq]
      constructor
      · intro hcontent
        exact ⟨⟨some .active, content ++ more, kept ++ added⟩, by simp, rfl, hcontent⟩
      · rintro ⟨g, hg, hplace, hcontent⟩
        rcases List.mem_append.1 hg with hg | hg
        · exact absurd hplace (hothers g hg)
        · obtain rfl := List.mem_singleton.1 hg
          exact hcontent
    · rw [if_neg hpath, hfiles]
      have hne : some SinkPath.active ≠ some path := fun heq => hpath (Option.some.inj heq).symm
      constructor
      · rintro ⟨g, hg, hplace, hcontent⟩
        rcases List.mem_append.1 hg with hg | hg
        · exact ⟨g, List.mem_append_left _ hg, hplace, hcontent⟩
        · obtain rfl := List.mem_singleton.1 hg
          exact absurd hplace hne
      · rintro ⟨g, hg, hplace, hcontent⟩
        rcases List.mem_append.1 hg with hg | hg
        · exact ⟨g, List.mem_append_left _ hg, hplace, hcontent⟩
        · obtain rfl := List.mem_singleton.1 hg
          exact absurd hplace hne
  case once => simpa [List.filterMap_append] using h.once
  case out => simpa [List.filter_append] using h.out
  case order =>
    have horder := h.order
    rw [List.pairwise_append] at horder ⊢
    obtain ⟨holder, _, hcross⟩ := horder
    refine ⟨holder, List.pairwise_singleton _ _, ?_⟩
    intro g hg g' hg'
    obtain rfl := List.mem_singleton.1 hg'
    have hprecedes := hcross g hg ⟨some .active, content, kept⟩ (List.mem_singleton_self _)
    exact hprecedes

/-- Files that go to other places, or out. -/
theorem move (h : KeptIn stored resolved rotatedOut gens) {moved : SinkPath → Option SinkPath} {out : List Bytes}
    (hinj : ∀ path path' target, moved path = some target → moved path' = some target → path = path')
    (horder : ∀ place place' : Option SinkPath, (∀ path, place = some path → stored path ≠ none) →
      (∀ path, place' = some path → stored path ≠ none) → MayPrecede place place' →
        MayPrecede (place.bind moved) (place'.bind moved))
    (hout : (gens.filter fun g => (g.place.bind moved).isNone).map Generation.content = rotatedOut ++ out)
    (hstored : ∀ path c, stored' path = some c ↔ ∃ source, stored source = some c ∧ moved source = some path) :
    ∃ gens', KeptIn stored' resolved (rotatedOut ++ out) gens' := by
  let shift : Generation → Generation := fun g => { g with place := g.place.bind moved }
  refine ⟨gens.map shift, ?_⟩
  constructor
  case records =>
    rw [List.flatMap_map]
    exact h.records
  case whole =>
    intro g hg
    obtain ⟨g', hg', rfl⟩ := List.mem_map.1 hg
    exact h.whole g' hg'
  case files =>
    intro path c
    rw [hstored]
    constructor
    · rintro ⟨source, hsource, hpath⟩
      obtain ⟨g, hg, hplace, hcontent⟩ := (h.files source c).1 hsource
      exact ⟨shift g, List.mem_map.2 ⟨g, hg, rfl⟩, by simp [shift, hplace, hpath], hcontent⟩
    · rintro ⟨g, hg, hplace, hcontent⟩
      obtain ⟨g', hg', rfl⟩ := List.mem_map.1 hg
      obtain ⟨source, hsource, hpath⟩ := Option.bind_eq_some_iff.1 hplace
      exact ⟨source, (h.files source c).2 ⟨g', hg', hsource, hcontent⟩, hpath⟩
  case once =>
    have hplaces : (gens.map shift).filterMap Generation.place = (gens.filterMap Generation.place).filterMap moved := by
      rw [List.filterMap_map, List.filterMap_filterMap]
      rfl
    rw [hplaces]
    exact h.once.filterMap hinj
  case out =>
    rw [List.filter_map, List.map_map]
    exact hout
  case order =>
    have hplaced : ∀ g ∈ gens, ∀ path, g.place = some path → stored path ≠ none := by
      intro g hg path hpath hnone
      have hsome := (h.files path g.content).2 ⟨g, hg, hpath, rfl⟩
      rw [hnone] at hsome
      cases hsome
    rw [List.pairwise_map]
    apply h.order.imp_of_mem
    intro g g' hg hg' hprecedes
    exact horder g.place g'.place (hplaced g hg) (hplaced g' hg') hprecedes

/-- A move that leaves every file somewhere rotates none out. -/
theorem nothing_out (h : KeptIn stored resolved rotatedOut gens) {moved : SinkPath → Option SinkPath}
    (hmoved : ∀ path, stored path ≠ none → moved path ≠ none) :
    (gens.filter fun g => (g.place.bind moved).isNone).map Generation.content = rotatedOut ++ [] := by
  rw [List.append_nil, ← h.out]
  congr 1
  apply List.filter_congr
  intro g hg
  cases hplace : g.place with
  | none => rfl
  | some path =>
    have hsome := (h.files path g.content).2 ⟨g, hg, hplace, rfl⟩
    have hne := hmoved path (by simp [hsome])
    obtain ⟨target, htarget⟩ := Option.ne_none_iff_exists'.1 hne
    simp [htarget]

/-- A new active file where there is none. -/
theorem create (h : KeptIn stored resolved rotatedOut gens) (hactive : stored .active = none)
    (hstored : ∀ path, stored' path = if path = .active then some [] else stored path) :
    ∃ gens', KeptIn stored' resolved rotatedOut gens' := by
  have hothers : ∀ g ∈ gens, g.place ≠ some .active := by
    intro g hg hplace
    have hsome := (h.files .active g.content).2 ⟨g, hg, hplace, rfl⟩
    rw [hactive] at hsome
    cases hsome
  refine ⟨gens ++ [⟨some .active, [], []⟩], ?_⟩
  constructor
  case records => simpa using h.records
  case whole =>
    intro g hg
    rcases List.mem_append.1 hg with hg | hg
    · exact h.whole g hg
    · obtain rfl := List.mem_singleton.1 hg
      exact List.Sublist.slnil
  case files =>
    intro path c
    rw [hstored]
    by_cases hpath : path = .active
    · subst hpath
      rw [if_pos rfl, Option.some.injEq]
      constructor
      · intro hc
        exact ⟨⟨some .active, [], []⟩, by simp, rfl, hc⟩
      · rintro ⟨g, hg, hplace, hcontent⟩
        have hnew := (List.mem_append.1 hg).resolve_left fun hold => hothers g hold hplace
        obtain rfl := List.mem_singleton.1 hnew
        exact hcontent
    · have hne : some SinkPath.active ≠ some path := fun heq => hpath (Option.some.inj heq).symm
      rw [if_neg hpath, h.files]
      constructor
      · rintro ⟨g, hg, hplace, hcontent⟩
        exact ⟨g, List.mem_append_left _ hg, hplace, hcontent⟩
      · rintro ⟨g, hg, hplace, hcontent⟩
        rcases List.mem_append.1 hg with hg | hg
        · exact ⟨g, hg, hplace, hcontent⟩
        · obtain rfl := List.mem_singleton.1 hg
          exact absurd hplace hne
  case once =>
    rw [List.filterMap_append, List.nodup_append]
    refine ⟨h.once, by simp, ?_⟩
    intro path hpath path' hpath' heq
    obtain ⟨g, hg, hplace⟩ := List.mem_filterMap.1 hpath
    have hactive' : path' = .active := by simpa using hpath'
    exact hothers g hg (by rw [hplace, heq, hactive'])
  case out => simpa [List.filter_append] using h.out
  case order =>
    rw [List.pairwise_append]
    refine ⟨h.order, List.pairwise_singleton _ _, ?_⟩
    intro g hg g' hg'
    obtain rfl := List.mem_singleton.1 hg'
    cases hplace : g.place with
    | none => trivial
    | some path =>
      cases path with
      | active => exact absurd hplace (hothers g hg)
      | backup index => trivial
      | preserved kind suffix => trivial

end KeptIn

end PlusOne
