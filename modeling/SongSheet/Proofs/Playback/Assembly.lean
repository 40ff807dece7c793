/-
SongSheet/Proofs/Playback/Assembly.lean

How the report of a playback is put together.

The tasks of the tracks are joined in the order in which they end.  A task that returns gives
the number of its track and its report, which go into a slot; a task that broke down gives
nothing, not even its number, and leaves its slot empty.  In the end an empty slot is filled
with the name of its track.

A gathering is an ensemble whose tasks are joined while others still run (`Gathering.Move`).
However this goes, the results are those of the tracks in some order
(`Gathering.joined_of_reached`), the slots do not depend on the order (`Report.gather_eq`),
and names are not looked at.
-/
import Mathlib.Algebra.GroupWithZero.Nat
import Mathlib.Data.List.Induction
import SongSheet.Proofs.Playback.Ending

namespace SongSheet.Playback

open Relation

/-! ### Slots -/

namespace Report

/-- The slots of so many tracks, after some tasks were joined. -/
def slots (n : Nat) (results : List (Option (Nat × TrackReport))) : List (Option TrackReport) :=
  results.foldl (fun slots result =>
    match result with
    | some (i, entry) => slots.set i (some entry)
    | none => slots) (List.replicate n none)

/-- The report that the results of tasks make. -/
def gather (names : List String) (results : List (Option (Nat × TrackReport))) : Report :=
  ⟨List.zipWith (fun name slot => slot.getD (.lost name)) names (slots names.length results)⟩

variable {n : Nat} {outcome : Nat → Option TrackReport}

theorem slots_concat (n : Nat) (results : List (Option (Nat × TrackReport)))
    (result : Option (Nat × TrackReport)) :
    slots n (results ++ [result]) =
      match result with
      | some (i, entry) => (slots n results).set i (some entry)
      | none => slots n results := by
  rw [slots, List.foldl_append]
  rfl

@[simp] theorem length_slots (n : Nat) (results : List (Option (Nat × TrackReport))) :
    (slots n results).length = n := by
  induction results using List.reverseRecOn with
  | nil => exact List.length_replicate
  | append_singleton results result ih =>
      rw [slots_concat]
      rcases result with - | ⟨i, entry⟩
      · exact ih
      · exact List.length_set.trans ih

/-- Each task that was joined has its own slot. -/
theorem getElem?_slots {order : List Nat} (once : order.Nodup) {i : Nat} (inside : i < n) :
    (slots n (order.map fun i => (outcome i).map (i, ·)))[i]? =
      some (if i ∈ order then outcome i else none) := by
  induction order using List.reverseRecOn with
  | nil =>
      rw [List.map_nil, slots, List.foldl_nil, if_neg List.not_mem_nil]
      exact List.getElem?_replicate_of_lt inside
  | append_singleton order j ih =>
      obtain ⟨once, -, apart⟩ := List.nodup_append.1 once
      have ih := ih once
      rw [List.map_append, List.map_singleton, slots_concat]
      by_cases eq : i = j
      · -- its slot was empty up to now
        subst eq
        have new : i ∉ order := fun old => apart i old i (List.mem_singleton_self i) rfl
        rw [if_neg new] at ih
        rw [if_pos (List.mem_append_right _ (List.mem_singleton_self i))]
        rcases outcome i with - | entry
        · exact ih
        · refine List.getElem?_set_self ?_
          rw [length_slots]
          exact inside
      · have same : i ∈ order ++ [j] ↔ i ∈ order := by
          rw [List.mem_append, List.mem_singleton]
          exact or_iff_left eq
        simp only [same]
        rw [← ih]
        rcases outcome j with - | entry
        · rfl
        · exact List.getElem?_set_ne (Ne.symm eq)

/-- In whatever order the tasks are joined, each track gets the report of its own task, or is
reported as lost. -/
theorem gather_eq (names : List String) {order : List Nat}
    (all : order.Perm (List.range names.length)) :
    gather names (order.map fun i => (outcome i).map (i, ·)) =
      ⟨names.mapIdx fun i name => (outcome i).getD (.lost name)⟩ := by
  refine congrArg Report.mk (List.ext_getElem? fun i => ?_)
  rw [List.getElem?_zipWith, List.getElem?_mapIdx]
  rcases name : names[i]? with - | name
  · rfl
  · have inside : i < names.length := (List.getElem?_eq_some_iff.1 name).1
    have joined : i ∈ order := all.mem_iff.2 (List.mem_range.2 inside)
    rw [getElem?_slots (all.nodup_iff.2 List.nodup_range) inside, if_pos joined]
    rfl

end Report

variable {σ : Type}

/-! ### Names -/

namespace Member

variable {config : Config} {renderer : Renderer σ} {t : Track} {s s' : Stage σ} {m m' : Member}

/-- A member and its report bear the name of its track; if it broke down, the report says only
this. -/
structure Bears (t : Track) (m : Member) : Prop where
  name : m.player.name = t.name
  report : m.player.report.name = t.name
  lost : m.player.phase = .crashed → m.place = .rest ∧ m.player.report = .lost t.name

theorem Bears.crash (h : m.Bears t) (s : Stage σ) : Bears t ⟨(m.player.crash s).2, .rest⟩ :=
  ⟨h.name, h.name, fun _ => ⟨rfl, congrArg TrackReport.lost h.name⟩⟩

theorem Bears.step (h : m.Bears t) (step : m.Step config renderer s s' m') : m'.Bears t := by
  -- a member that broke down takes no step
  have before : m.player.phase ≠ .crashed := fun crashed =>
    IsBroken.not_step ⟨(h.lost crashed).1, crashed⟩ step
  have kept {p : Player} {place : Place} (name : p.name = m.player.name)
      (report : p.report.name = m.player.report.name) (phase : p.phase ≠ .crashed) :
      Bears t ⟨p, place⟩ :=
    ⟨name.trans h.name, report.trans h.report, fun crashed => absurd crashed phase⟩
  cases step with
  | tooLate | noLength | beyond => exact h.crash s
  | refused => exact h.crash _
  | exhausted | pause | stop => exact kept rfl rfl nofun
  | finish => exact kept rfl rfl nofun
  | @count p _ o => exact kept rfl (by cases o <;> rfl) before
  | start | ahead | near | skip | wake | cut | goOn | turn | call | advance =>
      exact kept rfl rfl before

end Member

open Member Ensemble

/-- Every member bears the name of its track. -/
theorem memberInvariant_bears (setup : Setup σ) : MemberInvariant setup fun t _ m => m.Bears t where
  initial _ _ := ⟨rfl, rfl, nofun⟩
  step step h := h.step step
  sound := by
    rintro t s s' m p' ⟨endings, older, fresh, -, -, rfl, rfl⟩ h
    exact ⟨h.name, h.report, h.lost⟩
  frame _ h := h

/-! ### Tasks -/

namespace Member

/-- What is known of a task that is over. -/
def result? (m : Member) : Option TrackReport :=
  if m.player.phase = .finished then some m.player.report else none

end Member

namespace Ensemble

variable {setup : Setup σ} {sheet : Sheet} {may : Ensemble σ → Nat → Prop} {c c' : Ensemble σ}
  {i : Nat} {m : Member}

/-- What is known of the task of a track. -/
def outcome (c : Ensemble σ) (i : Nat) : Option TrackReport := c.members[i]?.bind (·.result?)

/-- The task of a track is over. -/
def HasEnded (c : Ensemble σ) (i : Nat) : Prop :=
  ∃ m, c.members[i]? = some m ∧ m.player.isOver = true

theorem outcome_eq (found : c.members[i]? = some m) : c.outcome i = m.result? := by
  rw [outcome, found]
  rfl

/-- Behind the last track there is no member. -/
theorem getElem?_of_no_track (h : Reached setup sheet may c) (none : sheet.tracks[i]? = none) :
    c.members[i]? = .none := by
  rw [List.getElem?_eq_none_iff] at none ⊢
  rw [length_of_reached h]
  exact none

/-- A member that broke down stays broken. -/
theorem isBroken_of_move (move : Move setup may c c') (found : c.members[i]? = some m)
    (broken : m.IsBroken) : ∃ m', c'.members[i]? = some m' ∧ m'.IsBroken := by
  rcases move.member found with still | ⟨m', step, -⟩ | ⟨p', sounds, there⟩
  · exact ⟨m, still, broken⟩
  · exact absurd step broken.not_step
  · exact ⟨_, there, broken.sound sounds⟩

/-- A task that is over stays so, with what is known of it. -/
theorem HasEnded.move (h : c.HasEnded i) (reached : Reached setup sheet may c)
    (move : Move setup may c c') : c'.HasEnded i ∧ c'.outcome i = c.outcome i := by
  obtain ⟨m, found, atEnd⟩ := h
  rw [outcome_eq found]
  rcases Player.isOver_iff.1 atEnd with finished | crashed
  · have done := isDone_of_finished reached found finished
    have stays := getElem?_of_isDone (.single move) found done
    exact ⟨⟨m, stays, atEnd⟩, outcome_eq stays⟩
  · obtain ⟨t, track⟩ := exists_track reached found
    obtain ⟨-, bears⟩ := (memberInvariant_bears setup).all_of_reached reached i m found
    obtain ⟨m', found', broken⟩ :=
      isBroken_of_move move found ⟨((bears t track).lost crashed).1, crashed⟩
    refine ⟨⟨m', found', Player.isOver_iff.2 (.inr broken.2)⟩, ?_⟩
    rw [outcome_eq found', result?, result?, crashed, broken.2]
    rfl

end Ensemble

/-! ### Gathering -/

/-- Tasks that are joined while others still run. -/
structure Gathering (σ : Type) where
  ensemble : Ensemble σ
  /-- The tracks whose tasks are not joined yet. -/
  running : List Nat
  /-- What the tasks gave that are, in the order in which they were joined. -/
  results : List (Option (Nat × TrackReport))

namespace Gathering

variable {setup : Setup σ} {sheet : Sheet} {g g' : Gathering σ}

/-- A move of the ensemble in any order, or a task that is over is joined. -/
inductive Move (setup : Setup σ) : Gathering σ → Gathering σ → Prop
  | act {g : Gathering σ} {c : Ensemble σ} : Ensemble.Move setup anyone g.ensemble c →
      Move setup g { g with ensemble := c }
  | join {g : Gathering σ} {i : Nat} : i ∈ g.running → g.ensemble.HasEnded i →
      Move setup g { g with
        running := g.running.erase i
        results := g.results ++ [(g.ensemble.outcome i).map (i, ·)] }

/-- The tasks of a sheet, before any of them is joined. -/
def ofEnsemble (sheet : Sheet) (c : Ensemble σ) : Gathering σ :=
  ⟨c, List.range sheet.tracks.length, []⟩

/-- What a gathering can get to from the start of a sheet. -/
def Reached (setup : Setup σ) (sheet : Sheet) : Gathering σ → Prop :=
  ReflTransGen (Move setup) (ofEnsemble sheet (ofPerformance (.ofSheet setup sheet)))

/-- The report when all tasks are joined. -/
def report (sheet : Sheet) (g : Gathering σ) : Report :=
  .gather (sheet.tracks.map (·.name)) g.results

/-- The tasks that were joined are over, and gave what is known of them. -/
def Joined (sheet : Sheet) (g : Gathering σ) (order : List Nat) : Prop :=
  (order ++ g.running).Perm (List.range sheet.tracks.length) ∧
    (∀ i ∈ order, g.ensemble.HasEnded i) ∧
    g.results = order.map fun i => (g.ensemble.outcome i).map (i, ·)

theorem Joined.move {order : List Nat} (h : g.Joined sheet order)
    (reached : Ensemble.Reached setup sheet anyone g.ensemble) (move : Move setup g g') :
    ∃ order', g'.Joined sheet order' := by
  obtain ⟨all, ended, results⟩ := h
  cases move with
  | act act =>
      refine ⟨order, all, fun i hi => ((ended i hi).move reached act).1, results.trans ?_⟩
      refine List.map_congr_left fun i hi => ?_
      rw [((ended i hi).move reached act).2]
  | @join i running atEnd =>
      refine ⟨order ++ [i], ?_, ?_, ?_⟩
      · -- the track goes from those that are running to those that are joined
        refine List.Perm.trans ?_ all
        rw [List.append_assoc]
        exact (List.perm_cons_erase running).symm.append_left order
      · intro j hj
        rcases List.mem_append.1 hj with old | new
        · exact ended j old
        · exact List.mem_singleton.1 new ▸ atEnd
      · rw [List.map_append, ← results]
        rfl

/-- The results are those of the tracks that are not running any more. -/
theorem joined_of_reached (h : Reached setup sheet g) :
    Ensemble.Reached setup sheet anyone g.ensemble ∧ ∃ order, g.Joined sheet order := by
  induction h with
  | refl => exact ⟨.refl, [], .refl _, nofun, rfl⟩
  | tail _ move ih =>
      obtain ⟨reached, order, joined⟩ := ih
      refine ⟨?_, joined.move reached move⟩
      cases move with
      | act act => exact reached.tail act
      | join => exact reached

/-- With all tasks joined, each track is reported by its own task. -/
theorem report_of_joined (h : Reached setup sheet g) (all : g.running = []) :
    g.report sheet = ⟨(sheet.tracks.map (·.name)).mapIdx fun i name =>
      (g.ensemble.outcome i).getD (.lost name)⟩ ∧
    ∀ i < sheet.tracks.length, g.ensemble.HasEnded i := by
  obtain ⟨-, order, perm, ended, results⟩ := joined_of_reached h
  rw [all, List.append_nil] at perm
  constructor
  · rw [report, results]
    exact Report.gather_eq _ (by rwa [List.length_map])
  · exact fun i hi => ended i (perm.mem_iff.2 (List.mem_range.2 hi))

/-- When all tasks are over, they can all be joined. -/
theorem exists_joined (ended : ∀ i ∈ g.running, g.ensemble.HasEnded i) :
    ∃ g', ReflTransGen (Move setup) g g' ∧ g'.ensemble = g.ensemble ∧ g'.running = [] := by
  obtain ⟨c, running, results⟩ := g
  induction running generalizing results with
  | nil => exact ⟨_, .refl, rfl, rfl⟩
  | cons i running ih =>
      obtain ⟨first, later⟩ := List.forall_mem_cons.1 ended
      have join : Move setup ⟨c, i :: running, results⟩
          ⟨c, (i :: running).erase i, results ++ [(c.outcome i).map (i, ·)]⟩ :=
        .join List.mem_cons_self first
      rw [List.erase_cons_head] at join
      obtain ⟨g', moves, same, none⟩ := ih _ later
      exact ⟨g', .head join moves, same, none⟩

/-- An ensemble is a gathering in which no task is joined. -/
theorem reached_ofEnsemble {c : Ensemble σ} (h : Ensemble.Reached setup sheet anyone c) :
    Reached setup sheet (ofEnsemble sheet c) := by
  induction h with
  | refl => exact .refl
  | tail _ move ih => exact ih.tail (.act move)

/-- With all tasks joined, the member of a track is over. -/
theorem member_of_joined (h : Reached setup sheet g) (all : g.running = []) {i : Nat} {t : Track}
    (track : sheet.tracks[i]? = some t) :
    ∃ m, g.ensemble.members[i]? = some m ∧ m.player.isOver = true ∧ m.Bears t := by
  obtain ⟨-, ended⟩ := report_of_joined h all
  obtain ⟨m, found, atEnd⟩ := ended i (List.getElem?_eq_some_iff.1 track).1
  obtain ⟨reached, -⟩ := joined_of_reached h
  obtain ⟨-, bears⟩ := (memberInvariant_bears setup).all_of_reached reached i m found
  exact ⟨m, found, atEnd, bears t track⟩

/-- With all tasks joined, the report has what each member has to report. -/
theorem report_eq_members (h : Reached setup sheet g) (all : g.running = []) :
    g.report sheet = ⟨g.ensemble.members.map (·.player.report)⟩ := by
  obtain ⟨reached, -⟩ := joined_of_reached h
  rw [(report_of_joined h all).1]
  refine congrArg Report.mk (List.ext_getElem? fun i => ?_)
  rw [List.getElem?_mapIdx, List.getElem?_map, List.getElem?_map]
  rcases track : sheet.tracks[i]? with - | t
  · rw [getElem?_of_no_track reached track]
    rfl
  · obtain ⟨m, found, atEnd, bears⟩ := member_of_joined h all track
    rw [found]
    refine congrArg some ?_
    show (g.ensemble.outcome i).getD (.lost t.name) = m.player.report
    rw [outcome_eq found, result?]
    rcases Player.isOver_iff.1 atEnd with finished | crashed
    · rw [if_pos finished]
      rfl
    · rw [if_neg (by rw [crashed]; nofun), (bears.lost crashed).2]
      rfl

/-- With all tasks joined, each track is reported under its name: by its own task if this
returned, and as lost otherwise. -/
theorem entries_of_joined (h : Reached setup sheet g) (all : g.running = []) :
    (g.report sheet).tracks.map (·.name) = sheet.tracks.map (·.name) ∧
    ∀ (i : Nat) (t : Track), sheet.tracks[i]? = some t → ∃ m : Member,
      g.ensemble.members[i]? = some m ∧
        (m.player.phase = .finished ∧ (g.report sheet).tracks[i]? = some m.player.report ∨
          m.player.phase = .crashed ∧ (g.report sheet).tracks[i]? = some (.lost t.name)) := by
  obtain ⟨reached, -⟩ := joined_of_reached h
  rw [report_eq_members h all]
  refine ⟨List.ext_getElem? fun i => ?_, fun i t track => ?_⟩
  · rw [List.getElem?_map, List.getElem?_map, List.getElem?_map]
    rcases track : sheet.tracks[i]? with - | t
    · rw [getElem?_of_no_track reached track]
      rfl
    · obtain ⟨m, found, -, bears⟩ := member_of_joined h all track
      rw [found]
      exact congrArg some bears.report
  · obtain ⟨m, found, atEnd, bears⟩ := member_of_joined h all track
    refine ⟨m, found, ?_⟩
    rw [List.getElem?_map, found]
    rcases Player.isOver_iff.1 atEnd with finished | crashed
    · exact .inl ⟨finished, rfl⟩
    · exact .inr ⟨crashed, congrArg some (bears.lost crashed).2⟩

end Gathering

/-! ### Reports -/

namespace Report

theorem foldr_add_eq_sum {α : Type} (f : α → Nat) (xs : List α) :
    xs.foldr (fun x n => f x + n) 0 = (xs.map f).sum := by
  induction xs with
  | nil => rfl
  | cons x xs ih => rw [List.foldr_cons, ih, List.map_cons, List.sum_cons]

/-- The totals of a report are over its entries. -/
theorem totals (r : Report) :
    r.notesScheduled = (r.tracks.map (·.notesScheduled)).sum ∧
      r.tonesFailed = (r.tracks.map (·.tonesFailed)).sum ∧
      (r.wasCancelled = true ↔ ∃ entry ∈ r.tracks, entry.cancelled = true) :=
  ⟨foldr_add_eq_sum _ _, foldr_add_eq_sum _ _, List.any_eq_true⟩

end Report

/-- What a performance that is over reports of its players. -/
theorem Performance.players_of_perform {setup : Setup σ} {sheet : Sheet} {r : Result}
    {report : Report} (played : perform setup sheet = some r) (reported : r.report = some report) :
    ∃ n, (∀ q ∈ ((ofSheet setup sheet).start.run n).players, q.isOver = true) ∧
      report = ((ofSheet setup sheet).start.run n).report := by
  obtain ⟨complete, -, eq⟩ := isComplete_of_reported played reported
  exact ⟨roundLimit setup sheet, List.all_eq_true.1 complete, eq⟩

/-- The report of a playback has one entry for each track of the sheet, in order.

* In whatever order tasks are joined and whatever comes of them, each slot is filled by its own
  task, or with the name of its track.
* When the tasks of a sheet are over, however their moves and the joins so far were ordered,
  they can all be joined, those that broke down too.  Then the entry of a track bears its name;
  it is the report of the track's own task, or that of a lost track if the task broke down.
* What a performance reports is gathered so, in any order.
* The totals of a report are over its entries. -/
theorem every_track_reported_once (setup : Setup σ) (sheet : Sheet) :
    (∀ (names : List String) (outcome : Nat → Option TrackReport) (order : List Nat),
      order.Perm (List.range names.length) →
      Report.gather names (order.map fun i => (outcome i).map (i, ·)) =
        ⟨names.mapIdx fun i name => (outcome i).getD (.lost name)⟩) ∧
    (∀ g, Gathering.Reached setup sheet g →
      ((∀ m ∈ g.ensemble.members, m.player.isOver = true) →
        ∃ g', ReflTransGen (Gathering.Move setup) g g' ∧ g'.ensemble = g.ensemble ∧
          g'.running = []) ∧
      (g.running = [] →
        (g.report sheet).tracks.map (·.name) = sheet.tracks.map (·.name) ∧
        ∀ (i : Nat) (t : Track), sheet.tracks[i]? = some t → ∃ m : Member,
          g.ensemble.members[i]? = some m ∧
          (m.player.phase = .finished ∧ (g.report sheet).tracks[i]? = some m.player.report ∨
            m.player.phase = .crashed ∧
              (g.report sheet).tracks[i]? = some (.lost t.name)))) ∧
    (∀ r report, perform setup sheet = some r → r.report = some report →
      ∃ c, Ensemble.Reached setup sheet anyone c ∧
        (∃ g, Gathering.Reached setup sheet g ∧ g.ensemble = c ∧ g.running = []) ∧
        ∀ g, Gathering.Reached setup sheet g → g.ensemble = c → g.running = [] →
          g.report sheet = report) ∧
    ∀ report : Report,
      report.notesScheduled = (report.tracks.map (·.notesScheduled)).sum ∧
      report.tonesFailed = (report.tracks.map (·.tonesFailed)).sum ∧
      (report.wasCancelled = true ↔ ∃ entry ∈ report.tracks, entry.cancelled = true) := by
  -- the tasks that are not joined are those of members
  have running {g : Gathering σ} (h : Gathering.Reached setup sheet g)
      (atEnd : ∀ m ∈ g.ensemble.members, m.player.isOver = true) :
      ∀ i ∈ g.running, g.ensemble.HasEnded i := by
    intro i hi
    obtain ⟨reached, order, perm, -⟩ := Gathering.joined_of_reached h
    have inside : i < g.ensemble.members.length := by
      rw [length_of_reached reached]
      exact List.mem_range.1 (perm.mem_iff.1 (List.mem_append_right order hi))
    exact ⟨_, List.getElem?_eq_getElem inside, atEnd _ (List.getElem_mem inside)⟩
  refine ⟨fun names outcome order all => Report.gather_eq names all, fun g reached => ⟨?_, ?_⟩,
    fun r report played reported => ?_, Report.totals⟩
  · exact fun atEnd => Gathering.exists_joined (running reached atEnd)
  · exact Gathering.entries_of_joined reached
  · obtain ⟨n, atEnd, rfl⟩ := Performance.players_of_perform played reported
    let c := ofPerformance ((Performance.ofSheet setup sheet).start.run n)
    have reached : Ensemble.Reached setup sheet anyone c := (reached_run setup sheet n).free
    have start := Gathering.reached_ofEnsemble reached
    refine ⟨c, reached, ?_, fun g gathered same all => ?_⟩
    · have atEnd : ∀ m ∈ c.members, m.player.isOver = true := by
        intro m hm
        obtain ⟨q, hq, rfl⟩ := List.mem_map.1 hm
        exact atEnd q hq
      obtain ⟨g, moves, same, none⟩ := Gathering.exists_joined (running start atEnd)
      exact ⟨g, start.trans moves, same, none⟩
    · rw [Gathering.report_eq_members gathered all, same]
      show Report.mk (((Performance.ofSheet setup sheet).start.run n).players.map _ |>.map _) = _
      rw [List.map_map]
      rfl

/-- Two tracks of one name, the second one with a note whose length is no length of time. -/
def namesakes : Sheet :=
  ⟨[bass, ⟨"bass", [⟨[.ofNat 110], .ofQuotient true 1 1, .sine, .ofNat 0, .ofNat 1⟩]⟩]⟩

/-- The second track is lost, the first one is reported in its own place, also when the two
are joined in the other order. -/
theorem every_track_reported_once_namesakes :
    Report.gather ["bass", "bass"] ([1, 0].map fun i =>
        (if i = 0 then some ⟨"bass", 1, 1, 0, false⟩ else none : Option TrackReport).map (i, ·)) =
      ⟨[⟨"bass", 1, 1, 0, false⟩, .lost "bass"]⟩ ∧
    ∃ g, Gathering.Reached unhurried namesakes g ∧ g.running = [] ∧
      g.report namesakes = ⟨[⟨"bass", 1, 1, 0, false⟩, .lost "bass"]⟩ := by
  obtain ⟨anyOrder, -, gathered, -⟩ := every_track_reported_once unhurried namesakes
  have played : ((perform unhurried namesakes).bind (·.report)) =
      some ⟨[⟨"bass", 1, 1, 0, false⟩, .lost "bass"]⟩ := by
    decide +kernel
  obtain ⟨r, performed, reported⟩ := Option.bind_eq_some_iff.1 played
  obtain ⟨c, -, ⟨g, reached, same, none⟩, report⟩ := gathered r _ performed reported
  refine ⟨?_, g, reached, none, report g reached same none⟩
  exact anyOrder ["bass", "bass"] (fun i => if i = 0 then some ⟨"bass", 1, 1, 0, false⟩ else .none)
    [1, 0] (by decide)

end SongSheet.Playback
