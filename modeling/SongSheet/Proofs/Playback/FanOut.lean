/-
SongSheet/Proofs/Playback/FanOut.lean

What a track asks of the renderer.

The plan of a track is written down without any clock: its note with number `k`
starts where the lengths of the notes before it end (`Track.start`), and is asked for
pitch by pitch (`Note.fan`).  A member that did not break down has asked for exactly
the plan of the notes it scheduled, plus the first pitches of a note while it is in
the middle of one (`Member.InStep`).  No step of another member, no delay and no end of
a tone has a part in this.
-/
import SongSheet.Playback.Rehearsal
import SongSheet.Proofs.Playback.Invariant

namespace SongSheet

open Playback

/-! ### The plan of a track -/

/-- The nanoseconds of a note; none if its length is no length of time. -/
def Note.nanoseconds (n : Note) : Nat := (Clock.nanoseconds n.duration).getD 0

/-- The requests of a note that starts at an instant, one per pitch. -/
def Note.fan (n : Note) (start : Nat) : List Request :=
  n.pitches.map (.ofNote n n.nanoseconds start)

/-- A sum over notes that starts with `a`. -/
theorem Note.foldr_add (f : Note → Nat) (ns : List Note) (a : Nat) :
    ns.foldr (fun n rest => f n + rest) a = ns.foldr (fun n rest => f n + rest) 0 + a := by
  induction ns with
  | nil => rw [List.foldr_nil, List.foldr_nil, Nat.zero_add]
  | cons n ns ih => rw [List.foldr_cons, List.foldr_cons, ih, Nat.add_assoc]

namespace Track

/-- The instant at which the note with number `k` starts: the nanoseconds of the notes
before it, from the origin on. -/
def start (t : Track) (k : Nat) : Nat := Performance.lengthOf { t with notes := t.notes.take k }

/-- The requests of the first `k` notes. -/
def requests (t : Track) (k : Nat) : List Request :=
  (t.notes.take k).zipIdx.flatMap fun (n, j) => n.fan (t.start j)

variable {t : Track} {k : Nat} {n : Note}

/-- Each note starts where the one before it ends. -/
theorem start_succ (h : t.notes[k]? = some n) : t.start (k + 1) = t.start k + n.nanoseconds := by
  show (t.notes.take (k + 1)).foldr (fun n rest => n.nanoseconds + rest) 0 =
    (t.notes.take k).foldr (fun n rest => n.nanoseconds + rest) 0 + n.nanoseconds
  rw [List.take_add_one, h, Option.toList_some, List.foldr_append, Note.foldr_add]
  rfl

/-- The plan of one more note. -/
theorem requests_succ (h : t.notes[k]? = some n) :
    t.requests (k + 1) = t.requests k ++ n.fan (t.start k) := by
  have length : (t.notes.take k).length = k :=
    List.length_take_of_le (Nat.le_of_lt (List.getElem?_eq_some_iff.1 h).1)
  rw [requests, List.take_add_one, h, Option.toList_some, List.zipIdx_append, List.flatMap_append,
    length]
  simp [requests]

/-- The plan has a request for every pitch. -/
theorem length_requests (h : k ≤ t.notes.length) :
    (t.requests k).length = pitchCount { t with notes := t.notes.take k } := by
  induction k with
  | zero => rfl
  | succ k ih =>
      have hn : t.notes[k]? = some t.notes[k] := List.getElem?_eq_getElem h
      rw [requests_succ hn, List.length_append, ih (Nat.le_of_succ_le h), Note.fan,
        List.length_map, pitchCount, pitchCount, List.take_add_one, hn, Option.toList_some,
        List.foldr_append]
      exact (Note.foldr_add (·.pitches.length) (t.notes.take k) t.notes[k].pitches.length).symm

end Track

namespace Playback

open Clock

variable {σ : Type}

/-! ### Members in step with the plan -/

namespace Member

/-- A member is not done with scheduling. -/
def IsScheduling (m : Member) : Prop :=
  m.place ≠ .rest ∨ m.player.phase = .ready ∨ ∃ instant, m.player.phase = .throttled instant

/-- What a member asked for since it was done with a note. -/
def Asked (t : Track) (m : Member) (made : List Request) : Prop :=
  match m.place with
  | .calling duration left => ∃ n done, t.notes[m.player.report.notesScheduled]? = some n ∧
      Clock.nanoseconds n.duration = some duration ∧ n.pitches = done ++ left ∧
      made = done.map (.ofNote n duration m.player.cursor)
  | _ => made = []

/-- A member has asked for the plan of the notes it scheduled, and for the pitches it
came to since. -/
structure InStep (t : Track) (s : Stage σ) (m : Member) : Prop where
  scheduled : m.player.report.notesScheduled ≤ t.notes.length
  lengths : ∀ n ∈ t.notes.take m.player.report.notesScheduled,
    (Clock.nanoseconds n.duration).isSome
  cursor : m.player.cursor = t.start m.player.report.notesScheduled
  notes : m.IsScheduling → m.player.notes = t.notes.drop m.player.report.notesScheduled
  requests : ∃ made, m.Asked t made ∧
    s.requestsOf m.player.index = t.requests m.player.report.notesScheduled ++ made

variable {config : Config} {renderer : Renderer σ} {t : Track} {s s' : Stage σ} {m m' : Member}

theorem not_isScheduling_of_joining {p : Player} (h : p.phase = .joining) :
    ¬ IsScheduling ⟨p, .rest⟩ := by
  simp [IsScheduling, h]

/-- The note a member has come to, and those behind it. -/
theorem InStep.next (h : m.InStep t s) (going : m.IsScheduling) {n : Note} {rest : List Note}
    (hn : m.player.notes = n :: rest) :
    t.notes[m.player.report.notesScheduled]? = some n ∧
      t.notes.drop (m.player.report.notesScheduled + 1) = rest := by
  have drop : t.notes.drop m.player.report.notesScheduled = n :: rest :=
    (h.notes going).symm.trans hn
  constructor
  · rw [← Nat.add_zero m.player.report.notesScheduled, ← List.getElem?_drop, drop]
    rfl
  · rw [← List.drop_drop, drop]
    rfl

/-- A change that concerns neither the plan nor the calls of the track. -/
theorem InStep.keep (h : m.InStep t s) (same : s.SameFor m.player.index s')
    (quiet : m.Asked t = (· = [])) (quiet' : m'.Asked t = (· = []))
    (index : m'.player.index = m.player.index)
    (scheduled : m'.player.report.notesScheduled = m.player.report.notesScheduled)
    (cursor : m'.player.cursor = m.player.cursor)
    (notes : m'.IsScheduling → m.IsScheduling ∧ m'.player.notes = m.player.notes) :
    m'.InStep t s' where
  scheduled := scheduled ▸ h.scheduled
  lengths := scheduled ▸ h.lengths
  cursor := cursor.trans (scheduled ▸ h.cursor)
  notes going := (notes going).2.trans (scheduled ▸ h.notes (notes going).1)
  requests := by
    obtain ⟨made, asked, requests⟩ := h.requests
    refine ⟨[], by rw [quiet'], ?_⟩
    rw [quiet] at asked
    rw [index, scheduled, same.requestsOf, requests, asked]

/-- A call for the next pitch. -/
theorem InStep.call {p : Player} {n : Note} {rest : List Note} {duration : Nat}
    {frequency : Single} {left : List Single} {tone : Option Tone} {voices : List Voice}
    (h : InStep t s ⟨p, .calling duration (frequency :: left)⟩) (hn : p.notes = n :: rest)
    (called : s.call renderer p.index (.ofNote n duration p.cursor frequency) = (s', tone)) :
    InStep t s' ⟨{ p with called := p.called + 1, fresh := voices }, .calling duration left⟩ where
  scheduled := h.scheduled
  lengths := h.lengths
  cursor := h.cursor
  notes _ := h.notes (.inl nofun)
  requests := by
    obtain ⟨here, -⟩ := h.next (.inl nofun) hn
    obtain ⟨-, ⟨n', done, found, length, pitches, rfl⟩, requests⟩ := h.requests
    obtain rfl : n = n' := Option.some.inj (here.symm.trans found)
    obtain ⟨c, request, -, calls⟩ := Stage.callsOf_of_call called
    refine ⟨_, ⟨n, done ++ [frequency], here, length, by simpa using pitches, rfl⟩, ?_⟩
    show (s'.callsOf p.index).map (·.request) = _
    rw [calls, List.map_append, List.map_append, List.map_singleton, request]
    exact (congrArg (· ++ _) requests).trans (List.append_assoc ..)

/-- The end of the note that was asked for. -/
theorem InStep.advance {p : Player} {n : Note} {rest : List Note} {duration : Nat}
    (h : InStep t s ⟨p, .calling duration []⟩) (hn : p.notes = n :: rest) :
    InStep t s
      ⟨{ p with
          notes := rest, cursor := p.cursor + duration
          report := { p.report with notesScheduled := p.report.notesScheduled + 1 } },
        .heading⟩ := by
  obtain ⟨here, behind⟩ := h.next (.inl nofun) hn
  obtain ⟨-, ⟨n', done, found, length, pitches, rfl⟩, requests⟩ := h.requests
  obtain rfl : n = n' := Option.some.inj (here.symm.trans found)
  have nanoseconds : n.nanoseconds = duration := by rw [Note.nanoseconds, length, Option.getD_some]
  have start : p.cursor = t.start p.report.notesScheduled := h.cursor
  refine ⟨(List.getElem?_eq_some_iff.1 here).1, ?_, ?_, fun _ => behind.symm, [], rfl, ?_⟩
  · -- the note had a length, or the member would not have come to its pitches
    intro n' hn'
    rw [List.take_add_one, here] at hn'
    rcases List.mem_append.1 hn' with before | last
    · exact h.lengths n' before
    · obtain rfl : n' = n := by simpa using last
      rw [length, Option.isSome_some]
  · rw [Track.start_succ here, nanoseconds, start]
  · rw [List.append_nil, Track.requests_succ here, Note.fan, nanoseconds, pitches, List.append_nil,
      ← start]
    exact requests

/-- A member stays in step. -/
theorem InStep.step (h : m.InStep t s) (step : m.Step config renderer s s' m') :
    m'.IsBroken ∨ m'.InStep t s' := by
  have told (e : Event) := s.sameFor_tell e m.player.index
  have same : s.SameFor m.player.index s := ⟨rfl, rfl⟩
  cases step with
  -- the member breaks down
  | tooLate | noLength | refused | beyond => exact .inl ⟨rfl, rfl⟩
  -- it moves on in its loop, or waits, or wakes up
  | start ready =>
      exact .inr (h.keep (told _) rfl rfl rfl rfl rfl fun _ => ⟨.inr (.inl ready), rfl⟩)
  | ahead => exact .inr (h.keep (told _) rfl rfl rfl rfl rfl fun _ => ⟨.inl (by rintro ⟨⟩), rfl⟩)
  | exhausted | near | skip | pause | goOn =>
      exact .inr (h.keep same rfl rfl rfl rfl rfl fun _ => ⟨.inl (by rintro ⟨⟩), rfl⟩)
  | wake waiting | cut waiting =>
      exact .inr (h.keep same rfl rfl rfl rfl rfl fun _ => ⟨.inr (.inr ⟨_, waiting⟩), rfl⟩)
  -- its notes are gone, but it does not schedule any more
  | stop =>
      exact .inr (h.keep (told _) rfl rfl rfl rfl rfl fun going =>
        absurd going (not_isScheduling_of_joining rfl))
  | @count p place o _ _ here =>
      have counted : (p.report.count o).notesScheduled = p.report.notesScheduled := by
        cases o <;> rfl
      have quiet (q : Player) : Asked t ⟨q, place⟩ = (· = []) := by
        rcases here with rfl | ⟨rfl, -⟩ <;> rfl
      exact .inr (h.keep (s.sameFor_tellAll _ _) (quiet _) (quiet _) rfl counted rfl
        fun going => ⟨going, rfl⟩)
  | finish =>
      exact .inr (h.keep (Player.sameFor_finish s _ _) rfl rfl rfl rfl rfl fun going => by
        simp [IsScheduling, Player.finish] at going)
  -- it comes to the first pitch of a note, to the next one, and behind the last
  | @turn p n rest duration hn length =>
      obtain ⟨here, -⟩ := h.next (.inl (by rintro ⟨⟩)) hn
      obtain ⟨made, rfl, requests⟩ := h.requests
      exact .inr ⟨h.scheduled, h.lengths, h.cursor, fun _ => h.notes (.inl (by rintro ⟨⟩)), [],
        ⟨n, [], here, length, rfl, rfl⟩, requests⟩
  | call hn called => exact .inr (h.call hn called)
  | advance hn => exact .inr (h.advance hn)

/-- The ends of tones do not change what was asked for. -/
theorem InStep.sound {p' : Player} (h : m.InStep t s) (sounds : m.player.Sounds s s' p') :
    InStep t s' ⟨p', m.place⟩ := by
  obtain ⟨endings, older, fresh, -, -, rfl, rfl⟩ := sounds
  have same : (s.settle endings).requestsOf m.player.index = s.requestsOf m.player.index := rfl
  obtain ⟨made, asked, requests⟩ := h.requests
  exact ⟨h.scheduled, h.lengths, h.cursor, h.notes, made, asked, same.trans requests⟩

/-- Nothing is asked for in a step that leaves the track alone. -/
theorem InStep.frame (h : m.InStep t s) (same : s.SameFor m.player.index s') : m.InStep t s' := by
  obtain ⟨made, asked, requests⟩ := h.requests
  exact ⟨h.scheduled, h.lengths, h.cursor, h.notes, made, asked, same.requestsOf.trans requests⟩

/-- Between two notes a member has asked for the plan, and for nothing else. -/
theorem InStep.requests_of_rest (h : m.InStep t s) (rest : m.place = .rest) :
    s.requestsOf m.player.index = t.requests m.player.report.notesScheduled := by
  obtain ⟨made, asked, requests⟩ := h.requests
  have none : made = [] := by rw [Asked, rest] at asked; exact asked
  rw [requests, none, List.append_nil]

/-- At the start nothing is scheduled and nothing was asked for. -/
theorem inStep_ofTrack {i : Nat} {t : Track} {s : Stage σ} (calls : s.callsOf i = []) :
    InStep t s ⟨.ofTrack i t, .rest⟩ where
  scheduled := Nat.zero_le _
  lengths n hn := nomatch hn
  cursor := rfl
  notes _ := rfl
  requests := by
    refine ⟨[], rfl, ?_⟩
    show (s.callsOf i).map (·.request) = _
    rw [calls]
    rfl

end Member

open Member Ensemble

variable {setup : Setup σ} {sheet : Sheet} {may : Ensemble σ → Nat → Prop}

/-- Every member is broken or in step. -/
theorem memberInvariant_inStep (setup : Setup σ) :
    MemberInvariant setup fun t s m => m.IsBroken ∨ m.InStep t s :=
  .orBroken (fun calls _ => inStep_ofTrack calls) (fun step h => h.step step)
    (fun sounds h => h.sound sounds) (fun same h => h.frame same)

/-- However the moves of the tracks are ordered, a track that did not break down and is
not in the middle of a note has asked for the plan of its first notes, as many as it
reports: one request per pitch, in order, each with the start that the lengths of the
notes before it give.  Whole performances are ordered in one such way. -/
theorem calls_follow_plan (setup : Setup σ) (sheet : Sheet) :
    (∀ c, Reached setup sheet anyone c → ∀ i t, sheet.tracks[i]? = some t →
      ∃ m, c.members[i]? = some m ∧
        (m.place = .rest → m.player.phase ≠ .crashed →
          m.player.report.notesScheduled ≤ t.notes.length ∧
          (∀ n ∈ t.notes.take m.player.report.notesScheduled, (nanoseconds n.duration).isSome) ∧
          c.stage.requestsOf i = t.requests m.player.report.notesScheduled)) ∧
    ∀ n, Reached setup sheet anyone
      (ofPerformance ((Performance.ofSheet setup sheet).start.run n)) := by
  constructor
  · intro c reached i t track
    obtain ⟨m, found, rfl, holds⟩ := (memberInvariant_inStep setup).member reached track
    refine ⟨m, found, ?_⟩
    intro rest whole
    have h : m.InStep t c.stage := holds.resolve_left fun broken => whole broken.2
    exact ⟨h.scheduled, h.lengths, h.requests_of_rest rest⟩
  · intro n
    exact (reached_run setup sheet n).free

/-! ### A duet -/

/-- Three notes of a quarter of a second, the first one a chord. -/
def melody : Track :=
  ⟨"melody", [[440, 550], [660], [0]].map fun ps =>
    ⟨ps.map Binary.ofNat, Binary.ofQuotient false 1 4, .triangle, .ofNat 0, .ofNat 1⟩⟩

/-- One note of a second. -/
def bass : Track :=
  ⟨"bass", [⟨[.ofNat 110], .ofNat 1, .sine, .ofNat 0, .ofNat 1⟩]⟩

/-- A melody over a bass. -/
def duet : Sheet := ⟨[melody, bass]⟩

/-- Tracks are at most a tenth of a second ahead, and look again after half of that; the
upper tone of the chord fails.  The token is fired after three tenths of a second. -/
def staged : Setup Nat where
  config := ⟨100 * millisecond, 50 * millisecond⟩
  renderer := Rehearsal.renderer ⟨.timed, [.ofNat 550], [], [], none⟩
  bus := .initial
  cancelled := false
  interventions := [(300 * millisecond, .cancel)]

/-- What can be read off the member of a track. -/
theorem Ensemble.eq_of_map_member {c : Ensemble σ} {i : Nat} {m : Member}
    (found : c.members[i]? = some m) {α : Type} {f : Member → α} {a : α}
    (h : c.members[i]?.map f = some a) : f m = a := by
  rw [found] at h
  exact Option.some.inj h

/-- The melody waits before its second note and is cut while it waits before its last
one: it has asked for the plan of two notes. -/
theorem calls_follow_plan_duet :
    ∃ m, (ofPerformance ((Performance.ofSheet staged duet).start.run 8)).members[0]? = some m ∧
      m.place = .rest ∧ m.player.phase = .finished ∧ m.player.report.notesScheduled = 2 ∧
      ((Performance.ofSheet staged duet).start.run 8).stage.requestsOf 0 = melody.requests 2 := by
  obtain ⟨plan, reached⟩ := calls_follow_plan staged duet
  obtain ⟨m, found, follows⟩ := plan _ (reached 8) 0 melody rfl
  have rest : m.place = .rest := eq_of_map_member found (by decide +kernel)
  have finished : m.player.phase = .finished :=
    eq_of_map_member (f := (·.player.phase)) found (by decide +kernel)
  have two : m.player.report.notesScheduled = 2 :=
    eq_of_map_member (f := (·.player.report.notesScheduled)) found (by decide +kernel)
  obtain ⟨-, -, requests⟩ := follows rest (by rw [finished]; nofun)
  rw [two, stage_ofPerformance] at requests
  exact ⟨m, found, rest, finished, two, requests⟩

end Playback

end SongSheet
