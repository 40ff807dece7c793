/-
SongSheet/Proofs/Playback/Scheduling.lean

Proofs about a player that schedules, one note at a time.

A player leaves a note in one of few ways: it goes on to the next note, it waits for its
turn, it stops, or it breaks down.  What two players have in common when they schedule the
same notes, each with its own renderer, is kept over any number of notes as soon as it is
kept in each of these ways (`Player.SchedulingTogether`), and so it is over a whole turn
(`Player.SchedulingTogether.play`).  A property of one player is a relation of the player
to itself, so the same is said of one player (`Player.Scheduling`) without another look at
the notes.
-/
import SongSheet.Playback.Player

namespace SongSheet.Playback

open Clock

variable {σ τ : Type}

/-! ### What a turn depends on -/

/-- A player that has ended waits for its last tones in vain. -/
def Phase.outline : Phase → Phase
  | .finished => .joining
  | phase => phase

theorem Phase.outline_eq_ready {phase : Phase} : phase.outline = .ready ↔ phase = .ready := by
  cases phase <;> simp [outline]

theorem Phase.outline_eq_throttled {phase : Phase} {w : Nat} :
    phase.outline = .throttled w ↔ phase = .throttled w := by
  cases phase <;> simp [outline]

namespace Player

/-- Holds no tone as new. -/
def regroup (p : Player) : Player := { p with older := p.older ++ p.fresh, fresh := [] }

/-- A player has nothing to schedule. -/
structure IsIdle (now : Nat) (cancelled : Bool) (p : Player) : Prop where
  started : p.phase ≠ .ready
  throttled : ∀ w, p.phase = .throttled w → cancelled = false ∧ now < w

section

variable {config : Config} {renderer : Renderer σ} {s : Stage σ} {p : Player}

/-- A player that is ready starts. -/
theorem play_of_ready (ready : p.phase = .ready) : p.play config renderer s =
    schedule config renderer p.notes (s.tell (.trackStarted p.name p.notes.length)) p := by
  simp only [play, ready]

/-- A player that waits for its turn stops, or goes on when the wait is over. -/
theorem play_of_throttled {w : Nat} (waiting : p.phase = .throttled w) :
    p.play config renderer s =
      if s.cancelled then p.stop s
      else if w ≤ s.now then schedule config renderer p.notes s p.regroup
      else (s, p) := by
  rw [play, regroup]
  cases p
  cases waiting
  rfl

/-- A player that has nothing to schedule schedules nothing. -/
theorem IsIdle.play (h : p.IsIdle s.now s.cancelled) : p.play config renderer s = (s, p) := by
  rw [Player.play]
  split
  case h_1 ready => exact absurd ready h.started
  case h_2 w waiting =>
    obtain ⟨unfired, ahead⟩ := h.throttled w waiting
    rw [if_neg (Bool.eq_false_iff.1 unfired), if_neg (Nat.not_le_of_lt ahead)]
  case h_3 => rfl

end

/-- The outline of the phase says whether there is something to schedule. -/
theorem IsIdle.of_outline {now : Nat} {cancelled : Bool} {p p' : Player}
    (h : p.IsIdle now cancelled) (same : p'.phase.outline = p.phase.outline) :
    p'.IsIdle now cancelled := by
  constructor
  · intro ready
    rw [ready] at same
    exact h.started (Phase.outline_eq_ready.1 same.symm)
  · intro w waiting
    rw [waiting] at same
    exact h.throttled w (Phase.outline_eq_throttled.1 same.symm)

/-! ### What a player does with a note -/

/-- Takes the tone of a call, if the call did not break down. -/
def receive (p : Player) : Option Tone → Player
  | some t => { p with called := p.called + 1, fresh := ⟨p.called, t⟩ :: p.fresh }
  | none => p

@[simp] theorem phase_receive (p : Player) (t : Option Tone) : (p.receive t).phase = p.phase := by
  cases t <;> rfl

/-- Counts a note as scheduled, and turns to those that are left. -/
def advance (p : Player) (left : List Note) (cursor : Nat) : Player :=
  { p with
    notes := left
    cursor := cursor
    report := { p.report with notesScheduled := p.report.notesScheduled + 1 } }

/-! ### Two players -/

/-- A relation of two players on their stages that is kept while they schedule the same notes,
and what is left of it when they leave off. -/
structure SchedulingTogether (config : Config) (renderer : Renderer σ) (renderer' : Renderer τ)
    (Going After : Stage σ × Player → Stage τ × Player → Prop) : Prop where
  now : ∀ {s p s' p'}, Going (s, p) (s', p') → s'.now = s.now
  cancelled : ∀ {s p s' p'}, Going (s, p) (s', p') → s'.cancelled = s.cancelled
  cursor : ∀ {s p s' p'}, Going (s, p) (s', p') → p'.cursor = p.cursor
  collect : ∀ {s p s' p'}, Going (s, p) (s', p') → Going (p.collect s) (p'.collect s')
  call : ∀ {s p s' p'}, Going (s, p) (s', p') → ∀ {n duration frequency s₁ s₂ t t'},
    s.call renderer p.index (.ofNote n duration p.cursor frequency) = (s₁, t) →
    s'.call renderer' p'.index (.ofNote n duration p'.cursor frequency) = (s₂, t') →
    t'.isSome = t.isSome ∧ Going (s₁, p.receive t) (s₂, p'.receive t')
  advance : ∀ {s p s' p'}, Going (s, p) (s', p') → ∀ left cursor,
    Going (s, p.advance left cursor) (s', p'.advance left cursor)
  wait : ∀ {s p s' p'}, Going (s, p) (s', p') →
    Going (s.tell (.waiting p.name), p) (s'.tell (.waiting p'.name), p')
  pause : ∀ {s p s' p'}, Going (s, p) (s', p') → s.cancelled = false →
    After (s, { p with phase := .throttled (tick (s.now + config.throttleTick)) })
      (s', { p' with phase := .throttled (tick (s.now + config.throttleTick)) })
  join : ∀ {s p s' p'}, Going (s, p) (s', p') → After (p.join s) (p'.join s')
  stop : ∀ {s p s' p'}, Going (s, p) (s', p') → After (p.stop s) (p'.stop s')
  crash : ∀ {s p s' p'}, Going (s, p) (s', p') → After (p.crash s) (p'.crash s')

namespace SchedulingTogether

variable {config : Config} {renderer : Renderer σ} {renderer' : Renderer τ}
  {Going After : Stage σ × Player → Stage τ × Player → Prop} {s : Stage σ} {s' : Stage τ}
  {p p' : Player}

/-- The calls for a note: both players make them all, or both break down in one. -/
theorem fanOut (rule : SchedulingTogether config renderer renderer' Going After)
    (h : Going (s, p) (s', p')) (n : Note) (duration : Nat) (left : List Single) :
    ∃ s₁ p₁ s₂ p₂ whole, fanOut renderer n duration left s p = (s₁, p₁, whole) ∧
      fanOut renderer' n duration left s' p' = (s₂, p₂, whole) ∧ Going (s₁, p₁) (s₂, p₂) := by
  induction left generalizing s s' p p' with
  | nil => exact ⟨s, p, s', p', true, rfl, rfl, h⟩
  | cons frequency left ih =>
      rcases first : s.call renderer p.index (.ofNote n duration p.cursor frequency) with ⟨s₁, t⟩
      rcases second : s'.call renderer' p'.index (.ofNote n duration p'.cursor frequency)
        with ⟨s₂, t'⟩
      obtain ⟨same, called⟩ := rule.call h first second
      simp only [Player.fanOut, first, second]
      cases t with
      | none =>
          obtain rfl : t' = none := Option.not_isSome_iff_eq_none.1 (Bool.eq_false_iff.1 same)
          exact ⟨s₁, p, s₂, p', false, rfl, rfl, called⟩
      | some t =>
          obtain ⟨t', rfl⟩ := Option.isSome_iff_exists.1 same
          exact ih called

/-- A wait for a turn. -/
theorem throttle (rule : SchedulingTogether config renderer renderer' Going After)
    (h : Going (s, p) (s', p')) : After (throttle config s p) (throttle config s' p') := by
  have told := rule.wait h
  simp only [Player.throttle]
  rw [rule.now told, rule.cancelled told]
  split
  · exact rule.crash told
  · split
    · exact rule.stop told
    case isFalse unfired => exact rule.pause told (Bool.eq_false_iff.2 unfired)

/-- Any number of notes. -/
theorem schedule (rule : SchedulingTogether config renderer renderer' Going After)
    (notes : List Note) (h : Going (s, p) (s', p')) :
    After (schedule config renderer notes s p) (schedule config renderer' notes s' p') := by
  induction notes generalizing s s' p p' with
  | nil =>
      rw [Player.schedule, Player.schedule]
      exact rule.join h
  | cons n rest ih =>
      rw [Player.schedule, Player.schedule, rule.cursor h, rule.now h, rule.cancelled h]
      -- one branch for each way in which `schedule` can leave the note
      split
      case isTrue => exact rule.throttle h
      case isFalse =>
        split
        case isTrue => exact rule.stop h
        case isFalse =>
          have counted : Going ((p.collect s).1, (p.collect s).2)
              ((p'.collect s').1, (p'.collect s').2) := rule.collect h
          dsimp only
          split
          case h_1 => exact rule.crash counted
          case h_2 duration length =>
            obtain ⟨s₁, p₁, s₂, p₂, whole, first, second, called⟩ :=
              rule.fanOut counted n duration n.pitches
            rw [first, second]
            cases whole with
            | false => exact rule.crash called
            | true =>
                dsimp only
                rw [rule.cursor called]
                split
                · exact rule.crash called
                · exact ih (rule.advance called rest (p₁.cursor + duration))

/-- A turn: a player starts, or goes on after a wait, or has nothing to schedule. -/
theorem play (rule : SchedulingTogether config renderer renderer' Going After)
    (phase : p'.phase.outline = p.phase.outline) (notes : p'.notes = p.notes)
    (start : p.phase = .ready → Going (s.tell (.trackStarted p.name p.notes.length), p)
      (s'.tell (.trackStarted p'.name p'.notes.length), p'))
    (resume : ∀ w, p.phase = .throttled w →
      Going (s, p) (s', p') ∧ Going (s, p.regroup) (s', p'.regroup))
    (rest : p.IsIdle s.now s.cancelled → After (s, p) (s', p')) :
    After (p.play config renderer s) (p'.play config renderer' s') := by
  have idle (started : p.phase ≠ .ready) (unthrottled : ∀ w, p.phase ≠ .throttled w) :
      After (p.play config renderer s) (p'.play config renderer' s') := by
    have first {now : Nat} {cancelled : Bool} : p.IsIdle now cancelled :=
      ⟨started, fun w waiting => absurd waiting (unthrottled w)⟩
    rw [first.play, (first.of_outline phase).play]
    exact rest first
  cases first : p.phase with
  | ready =>
      have second : p'.phase = .ready :=
        Phase.outline_eq_ready.1 (phase.trans (congrArg Phase.outline first))
      rw [play_of_ready first, play_of_ready second, notes]
      exact rule.schedule p.notes (notes ▸ start first)
  | throttled w =>
      have second : p'.phase = .throttled w :=
        Phase.outline_eq_throttled.1 (phase.trans (congrArg Phase.outline first))
      obtain ⟨going, woken⟩ := resume w first
      rw [play_of_throttled first, play_of_throttled second, notes, rule.now going,
        rule.cancelled going]
      split
      case isTrue => exact rule.stop going
      case isFalse unfired =>
        split
        case isTrue => exact rule.schedule p.notes woken
        case isFalse early =>
          refine rest ⟨by simp [first], fun w' waiting => ?_⟩
          obtain rfl : w = w' := Phase.throttled.inj (first.symm.trans waiting)
          exact ⟨Bool.eq_false_iff.2 unfired, Nat.lt_of_not_le early⟩
  | joining => exact idle (by simp [first]) (by simp [first])
  | finished => exact idle (by simp [first]) (by simp [first])
  | crashed => exact idle (by simp [first]) (by simp [first])

end SchedulingTogether

/-! ### One player -/

/-- A property of a player on its stage that is kept while it schedules, and what is left of it
when it leaves off. -/
structure Scheduling (config : Config) (renderer : Renderer σ)
    (Going After : Stage σ → Player → Prop) : Prop where
  collect : ∀ {s p}, Going s p → Going (p.collect s).1 (p.collect s).2
  call : ∀ {s p}, Going s p → ∀ {n duration frequency s₁ t},
    s.call renderer p.index (.ofNote n duration p.cursor frequency) = (s₁, t) →
    Going s₁ (p.receive t)
  advance : ∀ {s p}, Going s p → ∀ left cursor, Going s (p.advance left cursor)
  wait : ∀ {s p}, Going s p → Going (s.tell (.waiting p.name)) p
  pause : ∀ {s p}, Going s p → s.cancelled = false →
    After s { p with phase := .throttled (tick (s.now + config.throttleTick)) }
  join : ∀ {s p}, Going s p → After (p.join s).1 (p.join s).2
  stop : ∀ {s p}, Going s p → After (p.stop s).1 (p.stop s).2
  crash : ∀ {s p}, Going s p → After (p.crash s).1 (p.crash s).2

namespace Scheduling

variable {config : Config} {renderer : Renderer σ} {Going After : Stage σ → Player → Prop}
  {s : Stage σ} {p : Player}

/-- A property of a player relates the player to itself. -/
theorem together (rule : Scheduling config renderer Going After) :
    SchedulingTogether config renderer renderer (fun a b => b = a ∧ Going a.1 a.2)
      (fun a _ => After a.1 a.2) where
  now := by
    rintro s p _ _ ⟨⟨⟩, -⟩
    rfl
  cancelled := by
    rintro s p _ _ ⟨⟨⟩, -⟩
    rfl
  cursor := by
    rintro s p _ _ ⟨⟨⟩, -⟩
    rfl
  collect := by
    rintro s p _ _ ⟨⟨⟩, h⟩
    exact ⟨rfl, rule.collect h⟩
  call := by
    rintro s p _ _ ⟨⟨⟩, h⟩ n duration frequency s₁ s₂ t t' first second
    obtain ⟨rfl, rfl⟩ := Prod.mk.inj (first.symm.trans second)
    exact ⟨rfl, rfl, rule.call h first⟩
  advance := by
    rintro s p _ _ ⟨⟨⟩, h⟩ left cursor
    exact ⟨rfl, rule.advance h left cursor⟩
  wait := by
    rintro s p _ _ ⟨⟨⟩, h⟩
    exact ⟨rfl, rule.wait h⟩
  pause h := rule.pause h.2
  join h := rule.join h.2
  stop h := rule.stop h.2
  crash h := rule.crash h.2

/-- A turn of one player. -/
theorem play (rule : Scheduling config renderer Going After)
    (start : p.phase = .ready → Going (s.tell (.trackStarted p.name p.notes.length)) p)
    (resume : ∀ w, p.phase = .throttled w → Going s p ∧ Going s p.regroup)
    (rest : p.IsIdle s.now s.cancelled → After s p) :
    After (p.play config renderer s).1 (p.play config renderer s).2 := by
  refine rule.together.play rfl rfl (fun ready => ⟨rfl, start ready⟩) (fun w waiting => ?_) rest
  obtain ⟨going, woken⟩ := resume w waiting
  exact ⟨⟨rfl, going⟩, rfl, woken⟩

end Scheduling

end Player

end SongSheet.Playback
