/-
SongSheet/Proofs/Playback/Conservation.lean

No tone is lost, and none is counted twice.

A tone goes through three places: it rings from its call on, ends and waits to be
counted, and is counted in the report.  `Member.Accounted` says that the calls of a
track are exactly the tones in these places.  It holds between any two steps, and
does not care which tones end first, or whether they are counted between two notes
or at the end; a member that finished has nothing left in the first two places.
-/
import SongSheet.Proofs.Playback.FanOut

namespace SongSheet.Playback

variable {σ : Type}

/-! ### Counting outcomes -/

/-- The tone gave an error, or ended without a result. -/
def Outcome.isFailure : Outcome → Bool
  | completed => false
  | failed _ | crashed => true

/-- The tones in a report are tones with these outcomes. -/
def TrackReport.HasCounted (r : TrackReport) (os : List Outcome) : Prop :=
  r.tonesCompleted = os.count .completed ∧ r.tonesFailed = os.countP Outcome.isFailure

/-- One more outcome. -/
theorem TrackReport.HasCounted.count {r : TrackReport} {os : List Outcome} (h : r.HasCounted os)
    (o : Outcome) : (r.count o).HasCounted (os ++ [o]) := by
  obtain ⟨completed, failed⟩ := h
  cases o <;> simp [HasCounted, TrackReport.count, Outcome.isFailure, completed, failed]

/-- Each outcome is either counted as completed or as failed. -/
theorem TrackReport.HasCounted.tones_eq {r : TrackReport} {os : List Outcome}
    (h : r.HasCounted os) : r.tonesCompleted + r.tonesFailed = os.length := by
  have other : os.countP Outcome.isFailure = os.countP fun o => ¬ (o == .completed) = true :=
    List.countP_congr fun o _ => by cases o <;> simp [Outcome.isFailure]
  rw [h.1, h.2, other, List.count, ← List.length_eq_countP_add_countP]

/-! ### Members that account for their calls -/

/-- What a player knows of its tones. -/
def Player.books (p : Player) : Nat × Nat × List Voice × List Outcome × Nat × Nat :=
  (p.index, p.called, p.ringing, p.settled, p.report.tonesCompleted, p.report.tonesFailed)

namespace Member

/-- Each call of a member has one tone, which rings or ended; the tones that ended are
counted or wait for that.  With its end, a member has no tones left. -/
structure Accounted (s : Stage σ) (m : Member) : Prop where
  called : (s.callsOf m.player.index).length = m.player.called
  once : ((s.endingsOf m.player.index).map (·.number) ++ m.player.ringing.map (·.number)).Perm
    (List.range m.player.called)
  counted : ∃ counted, (s.endingsOf m.player.index).map (·.outcome) = counted ++ m.player.settled ∧
    m.player.report.HasCounted counted
  finished : m.player.phase = .finished →
    m.place = .rest ∧ m.player.ringing = [] ∧ m.player.settled = []

variable {config : Config} {renderer : Renderer σ} {s s' : Stage σ} {m m' : Member}

/-- A member in the middle of something did not finish. -/
theorem Accounted.not_finished (h : m.Accounted s) (going : m.place ≠ .rest) :
    m.player.phase ≠ .finished := fun finished => going (h.finished finished).1

/-- A change that does not concern the tones. -/
theorem Accounted.change (h : m.Accounted s) (same : s.SameFor m.player.index s')
    (books : m'.player.books = m.player.books)
    (finished : m'.player.phase = .finished →
      m'.place = .rest ∧ m'.player.ringing = [] ∧ m'.player.settled = []) :
    m'.Accounted s' := by
  simp only [Player.books, Prod.mk.injEq] at books
  obtain ⟨index, called, ringing, settled, completed, failed⟩ := books
  obtain ⟨calls, endings⟩ := same
  obtain ⟨counted, outcomes, hasCounted⟩ := h.counted
  refine ⟨?_, ?_, ⟨counted, ?_, ?_⟩, finished⟩
  · rw [index, calls, called, h.called]
  · rw [index, endings, called, ringing]
    exact h.once
  · rw [index, endings, settled, outcomes]
  · exact ⟨completed.trans hasCounted.1, failed.trans hasCounted.2⟩

/-- A change before the end that does not concern the tones. -/
theorem Accounted.keep (h : m.Accounted s) (same : s.SameFor m.player.index s')
    (books : m'.player.books = m.player.books) (going : m'.player.phase ≠ .finished) :
    m'.Accounted s' :=
  h.change same books fun finished => absurd finished going

/-- The tone of a new call rings, with a new number. -/
theorem Accounted.call {p : Player} {r : Request} {tone : Option Tone} {t : Tone}
    {duration : Nat} {frequency : Single} {left : List Single}
    (h : Accounted s ⟨p, .calling duration (frequency :: left)⟩)
    (called : s.call renderer p.index r = (s', tone)) :
    Accounted s' ⟨{ p with called := p.called + 1, fresh := ⟨p.called, t⟩ :: p.fresh },
      .calling duration left⟩ := by
  obtain ⟨c, -, -, calls⟩ := Stage.callsOf_of_call called
  have endings : s'.endingsOf p.index = s.endingsOf p.index := by
    obtain ⟨-, -, -, -, -, -, eq, -⟩ := Stage.call_spec called
    rw [Stage.endingsOf, Stage.endingsOf, eq]
  have going : Place.calling duration (frequency :: left) ≠ .rest := by rintro ⟨⟩
  refine ⟨?_, ?_, ?_, fun finished => absurd finished (h.not_finished going)⟩
  · show (s'.callsOf p.index).length = p.called + 1
    rw [calls, List.length_append, h.called]
    rfl
  · show ((s'.endingsOf p.index).map (·.number) ++
      (p.older ++ ⟨p.called, t⟩ :: p.fresh).map (·.number)).Perm (List.range (p.called + 1))
    -- the new number may as well stand in front
    have new : ((s.endingsOf p.index).map (·.number) ++
        (p.older ++ ⟨p.called, t⟩ :: p.fresh).map (·.number)).Perm
        (p.called :: ((s.endingsOf p.index).map (·.number) ++ p.ringing.map (·.number))) := by
      rw [List.map_append, List.map_cons, ← List.append_assoc]
      refine List.perm_middle.trans (.of_eq ?_)
      rw [List.append_assoc, ← List.map_append]
      rfl
    rw [endings, List.range_succ]
    exact new.trans ((h.once.cons _).trans (List.perm_append_singleton _ _).symm)
  · show ∃ counted, (s'.endingsOf p.index).map (·.outcome) = _ ∧ _
    rw [endings]
    exact h.counted

/-- An outcome that waited is counted. -/
theorem Accounted.count {p : Player} {place : Place} {o : Outcome} {os : List Outcome}
    {es : List Event} (h : Accounted s ⟨p, place⟩) (settled : p.settled = o :: os) :
    Accounted (s.tellAll es) ⟨{ p with report := p.report.count o, settled := os }, place⟩ := by
  obtain ⟨calls, endings⟩ := s.sameFor_tellAll es p.index
  obtain ⟨counted, outcomes, hasCounted⟩ := h.counted
  refine ⟨?_, ?_, ⟨counted ++ [o], ?_, hasCounted.count o⟩, ?_⟩
  · exact (congrArg List.length calls).trans h.called
  · show (((s.tellAll es).endingsOf p.index).map _ ++ _).Perm _
    rw [endings]
    exact h.once
  · show ((s.tellAll es).endingsOf p.index).map _ = _
    rw [endings, outcomes, settled, List.append_assoc]
    rfl
  · intro finished
    obtain ⟨-, -, none⟩ := h.finished finished
    rw [settled] at none
    cases none

/-- A step keeps the accounts. -/
theorem Accounted.step (h : m.Accounted s) (step : m.Step config renderer s s' m') :
    m'.IsBroken ∨ m'.Accounted s' := by
  have told (e : Event) := s.sameFor_tell e m.player.index
  have same : s.SameFor m.player.index s := ⟨rfl, rfl⟩
  cases step with
  | tooLate | noLength | refused | beyond => exact .inl ⟨rfl, rfl⟩
  -- nothing is called, counted or ended
  | start ready => exact .inr (h.keep (told _) rfl (by rw [ready]; nofun))
  | ahead => exact .inr (h.keep (told _) rfl (h.not_finished nofun))
  | exhausted | pause => exact .inr (h.keep same rfl nofun)
  | near | skip | goOn | turn | advance => exact .inr (h.keep same rfl (h.not_finished nofun))
  | wake waiting | cut waiting => exact .inr (h.keep same rfl (by rw [waiting]; nofun))
  | stop => exact .inr (h.keep (told _) rfl nofun)
  -- a tone comes up, is counted, or none is left
  | count settled => exact .inr (h.count settled)
  | call _ called => exact .inr (h.call called)
  | finish _ settled ringing =>
      exact .inr (h.change (Player.sameFor_finish s _ _) rfl fun _ => ⟨rfl, ringing, settled⟩)

/-- Tones that end wait to be counted. -/
theorem Accounted.sound {p' : Player} (h : m.Accounted s) (sounds : m.player.Sounds s s' p') :
    Accounted s' ⟨p', m.place⟩ := by
  obtain ⟨ends, older, fresh, track, numbers, rfl, rfl⟩ := sounds
  have endings := s.endingsOf_settle track
  obtain ⟨counted, outcomes, hasCounted⟩ := h.counted
  refine ⟨h.called, ?_, ⟨counted, ?_, hasCounted⟩, ?_⟩
  · show (((s.settle ends).endingsOf m.player.index).map _ ++ (older ++ fresh).map _).Perm _
    rw [endings, List.map_append, List.append_assoc]
    exact (numbers.append_left _).trans h.once
  · show ((s.settle ends).endingsOf m.player.index).map _ = _
    rw [endings, List.map_append, outcomes, List.append_assoc]
  · -- a member that finished has no tones that could end
    intro finished
    obtain ⟨place, ringing, settled⟩ := h.finished finished
    rw [ringing] at numbers
    have none : ends = [] ∧ older ++ fresh = [] := by simpa using numbers.eq_nil
    exact ⟨place, none.2, by rw [settled, none.1]; rfl⟩

/-- Other tracks have no part in the accounts. -/
theorem Accounted.frame (h : m.Accounted s) (same : s.SameFor m.player.index s') :
    m.Accounted s' := by
  obtain ⟨calls, endings⟩ := same
  exact ⟨calls ▸ h.called, endings ▸ h.once, endings ▸ h.counted, h.finished⟩

/-- At the start there are no calls to account for. -/
theorem accounted_ofTrack {i : Nat} {t : Track} {s : Stage σ} (calls : s.callsOf i = [])
    (endings : s.endingsOf i = []) : Accounted s ⟨.ofTrack i t, .rest⟩ := by
  refine ⟨?_, ?_, ⟨[], ?_, rfl, rfl⟩, nofun⟩
  · show (s.callsOf i).length = 0
    rw [calls]
    rfl
  · show ((s.endingsOf i).map _ ++ []).Perm []
    rw [endings]
    exact .nil
  · show (s.endingsOf i).map _ = []
    rw [endings]
    rfl

end Member

open Member Ensemble

/-- Every member is broken or accounts for its calls. -/
theorem memberInvariant_accounted (setup : Setup σ) :
    MemberInvariant setup fun _ s m => m.IsBroken ∨ m.Accounted s :=
  .orBroken accounted_ofTrack (fun step h => h.step step) (fun sounds h => h.sound sounds)
    (fun same h => h.frame same)

/-- However the moves are ordered and however tones end, a report that a track gives at its
end counts each of its calls once: as completed if the tone ended well, as failed if it
gave an error or no result.  The calls are the pitches of the notes it scheduled. -/
theorem tones_conserved (setup : Setup σ) (sheet : Sheet) :
    (∀ c, Reached setup sheet anyone c → ∀ i t, sheet.tracks[i]? = some t →
      ∃ m, c.members[i]? = some m ∧
        (m.player.phase = .finished →
          m.player.report.tonesCompleted + m.player.report.tonesFailed =
            (c.stage.callsOf i).length ∧
          (c.stage.callsOf i).length =
            Track.pitchCount { t with notes := t.notes.take m.player.report.notesScheduled } ∧
          ((c.stage.endingsOf i).map (·.number)).Perm (List.range (c.stage.callsOf i).length) ∧
          m.player.report.tonesCompleted =
            (c.stage.endingsOf i).countP (·.outcome = .completed) ∧
          m.player.report.tonesFailed = (c.stage.endingsOf i).countP (·.outcome.isFailure))) ∧
    ∀ n, Reached setup sheet anyone
      (ofPerformance ((Performance.ofSheet setup sheet).start.run n)) := by
  refine ⟨?_, fun n => (reached_run setup sheet n).free⟩
  intro c reached i t track
  have invariant := (memberInvariant_inStep setup).and (memberInvariant_accounted setup)
  obtain ⟨m, found, rfl, plan, accounts⟩ := invariant.member reached track
  refine ⟨m, found, ?_⟩
  intro finished
  have whole : ¬ m.IsBroken := fun broken => by rw [broken.2] at finished; cases finished
  have plan : m.InStep t c.stage := plan.resolve_left whole
  have accounts : m.Accounted c.stage := accounts.resolve_left whole
  obtain ⟨rest, ringing, settled⟩ := accounts.finished finished
  -- nothing rings and nothing waits, so the outcomes counted are those of all calls
  obtain ⟨counted, outcomes, hasCounted⟩ := accounts.counted
  rw [settled, List.append_nil] at outcomes
  have once := accounts.once
  rw [ringing, List.map_nil, List.append_nil, ← accounts.called] at once
  have length : counted.length = (c.stage.callsOf m.player.index).length := by
    rw [← outcomes, List.length_map, ← List.length_map, once.length_eq, List.length_range]
  refine ⟨hasCounted.tones_eq.trans length, ?_, once, ?_, ?_⟩
  · rw [← Track.length_requests plan.scheduled, ← plan.requests_of_rest rest, Stage.requestsOf,
      List.length_map]
  · rw [hasCounted.1, ← outcomes, List.count, List.countP_map]
    exact List.countP_congr fun e _ => by simp
  · rw [hasCounted.2, ← outcomes, List.countP_map]
    rfl

/-- The chord of the melody, one tone of which fails, is over before the melody is cut. -/
theorem tones_conserved_duet :
    ∃ m, (ofPerformance ((Performance.ofSheet staged duet).start.run 8)).members[0]? = some m ∧
      m.player.phase = .finished ∧ m.player.report.tonesFailed = 1 ∧
      m.player.report.tonesCompleted + m.player.report.tonesFailed =
        (((Performance.ofSheet staged duet).start.run 8).stage.callsOf 0).length := by
  obtain ⟨conserved, reached⟩ := tones_conserved staged duet
  obtain ⟨m, found, counts⟩ := conserved _ (reached 8) 0 melody rfl
  have finished : m.player.phase = .finished :=
    eq_of_map_member (f := (·.player.phase)) found (by decide +kernel)
  have failed : m.player.report.tonesFailed = 1 :=
    eq_of_map_member (f := (·.player.report.tonesFailed)) found (by decide +kernel)
  obtain ⟨all, -⟩ := counts finished
  rw [stage_ofPerformance] at all
  exact ⟨m, found, finished, failed, all⟩

end SongSheet.Playback
