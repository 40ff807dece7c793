/-
SongSheet/Proofs/Playback/Outline.lean

What scheduling looks at.

A player counts how its tones ended, but never looks at the count while it schedules.  Cut
down to what it does look at, a player is an outline (`Player.outline`): its number, its
notes, its cursor, how many notes it scheduled, and what it waits for; whether it waits for
its last tones or has ended makes no difference.  Two players with one outline may be played
with different renderers, on stages that differ in all but the clock, the token and what
was asked for (`Player.Agrees`).  If no call breaks down or fires the token, each of the
functions that make up a round takes them to two such players again.
-/
import SongSheet.Proofs.Playback.Turns

namespace SongSheet.Playback

open Clock

variable {σ τ υ : Type}

/-- Every call gives a tone, and leaves the token alone. -/
structure Renderer.IsReliable (renderer : Renderer σ) : Prop where
  answers : renderer.Answers
  leavesToken : renderer.LeavesToken

/-! ### Stages -/

/-- The track of a call, its instant, and what it asks for. -/
def Call.asked (c : Call) : Nat × Nat × Request := (c.track, c.instant, c.request)

namespace Stage

/-- What was asked for, the newest first. -/
def asked (s : Stage σ) : List (Nat × Nat × Request) := s.calls.map Call.asked

/-- The clock and the token of two stages agree, and the same was asked for on both. -/
structure Agrees (s : Stage σ) (s' : Stage τ) : Prop where
  now : s'.now = s.now
  cancelled : s'.cancelled = s.cancelled
  asked : s'.asked = s.asked

namespace Agrees

variable {s : Stage σ} {s' : Stage τ} {s'' : Stage υ}

theorem refl : s.Agrees s := ⟨rfl, rfl, rfl⟩

theorem symm (h : s.Agrees s') : s'.Agrees s := ⟨h.now.symm, h.cancelled.symm, h.asked.symm⟩

theorem trans (h : s.Agrees s') (k : s'.Agrees s'') : s.Agrees s'' :=
  ⟨k.now.trans h.now, k.cancelled.trans h.cancelled, k.asked.trans h.asked⟩

/-- A moment in which the token is left alone, and nobody calls. -/
theorem of_moment {s s' : Stage σ} (moment : s.SameMoment True s') (calls : s'.calls = s.calls) :
    s.Agrees s' :=
  ⟨moment.now, moment.cancelled trivial, by rw [Stage.asked, Stage.asked, calls]⟩

end Agrees

theorem agrees_tellAll (s : Stage σ) (es : List Event) : s.Agrees (s.tellAll es) :=
  .of_moment ⟨now_tellAll s es, fun _ => cancelled_tellAll s es⟩ (calls_tellAll s es)

theorem agrees_tell (s : Stage σ) (e : Event) : s.Agrees (s.tell e) := s.agrees_tellAll [e]

/-- A call is added to what was asked for. -/
theorem asked_of_call {renderer : Renderer σ} {s s' : Stage σ} {i : Nat} {r : Request}
    {t : Option Tone} (called : s.call renderer i r = (s', t)) :
    s'.now = s.now ∧ s'.asked = (i, s.now, r) :: s.asked := by
  obtain ⟨c, track, instant, request, calls, now, -⟩ := call_spec called
  refine ⟨now, ?_⟩
  rw [Stage.asked, Stage.asked, calls, List.map_cons, Call.asked, track, instant, request]

end Stage

open Stage

/-! ### Players -/

/-- What a player looks at when it schedules. -/
structure Outline where
  index : Nat
  notes : List Note
  cursor : Nat
  /-- The notes that were scheduled. -/
  scheduled : Nat
  phase : Phase

namespace Player

/-- A player without its tones, and without what was counted of them. -/
def outline (p : Player) : Outline :=
  ⟨p.index, p.notes, p.cursor, p.report.notesScheduled, p.phase.outline⟩

/-- Two players with one outline, on stages that agree. -/
structure Agrees (a : Stage σ × Player) (b : Stage τ × Player) : Prop where
  stage : a.1.Agrees b.1
  outline : b.2.outline = a.2.outline

/-! ### What makes no difference to the outline -/

section

variable (s : Stage σ) (p : Player)

theorem notesScheduled_foldl_count (r : TrackReport) (os : List Outcome) :
    (os.foldl TrackReport.count r).notesScheduled = r.notesScheduled := by
  induction os generalizing r with
  | nil => rfl
  | cons o os ih =>
      rw [List.foldl_cons, ih]
      cases o <;> rfl

/-- To count tones. -/
theorem agrees_collect : Agrees (s, p) (p.collect s) := by
  refine ⟨s.agrees_tellAll _, ?_⟩
  simp only [collect, outline, notesScheduled_foldl_count]

/-- To end, for a player that waits for its last tones. -/
theorem agrees_finish : Agrees (s, { p with phase := .joining }) (p.finish s) := by
  rw [finish_eq]
  exact ⟨s.agrees_tellAll _, rfl⟩

/-- To wait for the last tones. -/
theorem agrees_join : Agrees (s, { p with phase := .joining }) (p.join s) := by
  obtain ⟨stage, outline⟩ := agrees_collect s { p with phase := .joining }
  obtain ⟨stage', outline'⟩ := agrees_finish (p.collect s).1 (p.collect s).2
  rw [join_eq]
  split
  · exact ⟨stage.trans stage', outline'.trans outline⟩
  · exact ⟨stage, outline⟩

/-- To hear of tones. -/
theorem agrees_sound (track : Nat) (voices : List Voice) :
    s.Agrees (sound s track voices).1 :=
  .of_moment (sameMoment_sound s track voices) (by simp only [sound, calls_settle, calls_tellAll])

theorem agrees_soundOlder : Agrees (s, p) (p.soundOlder s) :=
  ⟨agrees_sound s p.index p.older, rfl⟩

theorem agrees_soundBoth : Agrees (s, p) (p.soundBoth s) :=
  ⟨(agrees_sound s p.index p.older).trans
    (agrees_sound (p.soundOlder s).1 (p.soundOlder s).2.index (p.soundOlder s).2.fresh), rfl⟩

theorem agrees_soundAll : Agrees (s, p) (p.soundAll s) := by
  have both := agrees_soundBoth s p
  rw [soundAll_eq]
  split
  case isTrue joining =>
    -- a player that waited for its last tones goes on waiting, or ends
    have waiting : { (p.soundBoth s).2 with phase := .joining } = (p.soundBoth s).2 := by
      rw [← joining]
      rfl
    have joined := agrees_join (p.soundBoth s).1 (p.soundBoth s).2
    rw [waiting] at joined
    exact ⟨both.stage.trans joined.stage, joined.outline.trans both.outline⟩
  case isFalse => exact both

end

variable {config : Config} {renderer : Renderer σ} {renderer' : Renderer τ} {s : Stage σ}
  {s' : Stage τ} {p p' : Player}

@[simp] theorem outline_receive (p : Player) (t : Option Tone) :
    (p.receive t).outline = p.outline := by
  cases t <;> rfl

/-! ### Scheduling -/

namespace Agrees

theorem symm {a : Stage σ × Player} {b : Stage τ × Player} (h : Agrees a b) : Agrees b a :=
  ⟨h.stage.symm, h.outline.symm⟩

theorem trans {a : Stage σ × Player} {b : Stage τ × Player} {c : Stage υ × Player}
    (h : Agrees a b) (k : Agrees b c) : Agrees a c :=
  ⟨h.stage.trans k.stage, k.outline.trans h.outline⟩

theorem index (h : Agrees (s, p) (s', p')) : p'.index = p.index := congrArg Outline.index h.outline

theorem notes (h : Agrees (s, p) (s', p')) : p'.notes = p.notes := congrArg Outline.notes h.outline

theorem cursor (h : Agrees (s, p) (s', p')) : p'.cursor = p.cursor :=
  congrArg Outline.cursor h.outline

theorem scheduled (h : Agrees (s, p) (s', p')) :
    p'.report.notesScheduled = p.report.notesScheduled := congrArg Outline.scheduled h.outline

theorem phase (h : Agrees (s, p) (s', p')) : p'.phase.outline = p.phase.outline :=
  congrArg Outline.phase h.outline

theorem tell (h : Agrees (s, p) (s', p')) (e e' : Event) : Agrees (s.tell e, p) (s'.tell e', p') :=
  ⟨(agrees_tell s e).symm.trans (h.stage.trans (agrees_tell s' e')), h.outline⟩

theorem collect (h : Agrees (s, p) (s', p')) : Agrees (p.collect s) (p'.collect s') :=
  (agrees_collect s p).symm.trans (h.trans (agrees_collect s' p'))

theorem join (h : Agrees (s, p) (s', p')) : Agrees (p.join s) (p'.join s') := by
  have joining : Agrees (s, { p with phase := .joining }) (s', { p' with phase := .joining }) :=
    ⟨h.stage, by simp only [Player.outline, h.index, h.notes, h.cursor, h.scheduled]⟩
  exact (agrees_join s p).symm.trans (joining.trans (agrees_join s' p'))

theorem stop (h : Agrees (s, p) (s', p')) : Agrees (p.stop s) (p'.stop s') := by
  refine join ⟨(h.tell _ _).stage, ?_⟩
  simp only [Player.outline, h.index, h.cursor, h.scheduled, h.phase]

theorem crash (h : Agrees (s, p) (s', p')) : Agrees (p.crash s) (p'.crash s') := by
  refine ⟨(h.tell _ _).stage, ?_⟩
  simp only [Player.crash, Player.outline, h.index, h.cursor, TrackReport.lost]

theorem call (reliable : renderer.IsReliable) (reliable' : renderer'.IsReliable)
    (h : Agrees (s, p) (s', p')) {n : Note} {duration : Nat} {frequency : Single} {s₁ : Stage σ}
    {s₂ : Stage τ} {t t' : Option Tone}
    (called : s.call renderer p.index (.ofNote n duration p.cursor frequency) = (s₁, t))
    (called' : s'.call renderer' p'.index (.ofNote n duration p'.cursor frequency) = (s₂, t')) :
    t'.isSome = t.isSome ∧ Agrees (s₁, p.receive t) (s₂, p'.receive t') := by
  obtain ⟨now, asked⟩ := asked_of_call called
  obtain ⟨now', asked'⟩ := asked_of_call called'
  have cancelled := reliable.leavesToken.call called
  have cancelled' := reliable'.leavesToken.call called'
  have answer : t'.isSome = t.isSome :=
    (reliable'.answers.isSome called').trans (reliable.answers.isSome called).symm
  refine ⟨answer, ⟨?_, ?_, ?_⟩, ?_⟩
  · rw [now', h.stage.now, now]
  · rw [cancelled', h.stage.cancelled, cancelled]
  · rw [asked', asked, h.stage.asked, h.stage.now, h.index, h.cursor]
  · rw [outline_receive, outline_receive, h.outline]

/-- It is kept while the two schedule. -/
theorem together (config : Config) (reliable : renderer.IsReliable)
    (reliable' : renderer'.IsReliable) :
    SchedulingTogether config renderer renderer' Agrees Agrees where
  now h := h.stage.now
  cancelled h := h.stage.cancelled
  cursor h := h.cursor
  collect h := h.collect
  call h := h.call reliable reliable'
  advance h left cursor := by
    refine ⟨h.stage, ?_⟩
    simp only [Player.outline, Player.advance, h.index, h.scheduled, h.phase]
  wait h := h.tell _ _
  pause h _ := by
    refine ⟨h.stage, ?_⟩
    simp only [Player.outline, h.index, h.notes, h.cursor, h.scheduled]
  join h := h.join
  stop h := h.stop
  crash h := h.crash

theorem play (reliable : renderer.IsReliable) (reliable' : renderer'.IsReliable)
    (h : Agrees (s, p) (s', p')) :
    Agrees (p.play config renderer s) (p'.play config renderer' s') := by
  exact (together config reliable reliable').play h.phase h.notes (fun _ => h.tell _ _)
    (fun _ _ => ⟨h, h.stage, h.outline⟩) fun _ => h

end Agrees

end Player

end SongSheet.Playback
