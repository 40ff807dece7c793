/-
SongSheet/Proofs/Playback/Renumber.lean

What a player does not look at.

A player sees the clock, the token, and what the renderer answers; it looks neither at its
own number nor at what other tracks do.  Here this is said of two players that differ in
their number only, on two stages that differ in everything else (`Player.Mirrors`): each of
the functions that make up a round takes the two to two such players again, on two such
stages.  For a call this needs a renderer whose answer depends on nothing else either
(`Renderer.IsSteady`).
-/
import SongSheet.Proofs.Playback.Waiting

namespace SongSheet.Playback

open Clock

variable {σ : Type}

/-- The answer to a call depends on the request, the clock and the token, and a call leaves the
token alone. -/
def Renderer.IsSteady (renderer : Renderer σ) : Prop :=
  ∃ answer : Nat → Bool → Request → Option Tone, ∀ memory x r,
    (renderer.react memory x r).2.cancels = false ∧
      (renderer.react memory x r).2.tone = answer x.now x.cancelled r

theorem Renderer.IsSteady.leavesToken {renderer : Renderer σ} (h : renderer.IsSteady) :
    renderer.LeavesToken := by
  obtain ⟨answer, steady⟩ := h
  exact fun memory x r => (steady memory x r).1

/-! ### Stages -/

namespace Stage

/-- What a track asked for, and when. -/
def timesOf (s : Stage σ) (i : Nat) : List (Nat × Request) :=
  (s.callsOf i).map fun call => (call.instant, call.request)

/-- The clock and the token of two stages agree, and a track asked for the same on the one as
another track on the other. -/
structure Alike (i j : Nat) (s s' : Stage σ) : Prop where
  now : s'.now = s.now
  cancelled : s'.cancelled = s.cancelled
  times : s'.timesOf j = s.timesOf i

variable {i j k : Nat} {s s' s'' : Stage σ}

/-- A call is the last of its track. -/
theorem timesOf_call {renderer : Renderer σ} {r : Request} {t : Option Tone}
    (called : s.call renderer i r = (s', t)) : s'.timesOf i = s.timesOf i ++ [(s.now, r)] := by
  obtain ⟨c, request, instant, all⟩ := callsOf_of_call called
  rw [timesOf, timesOf, all, List.map_append, List.map_singleton, instant, request]

namespace Alike

theorem refl : s.Alike i i s := ⟨rfl, rfl, rfl⟩

theorem symm (h : s.Alike i j s') : s'.Alike j i s :=
  ⟨h.now.symm, h.cancelled.symm, h.times.symm⟩

theorem trans (h : s.Alike i j s') (h' : s'.Alike j k s'') : s.Alike i k s'' :=
  ⟨h'.now.trans h.now, h'.cancelled.trans h.cancelled, h'.times.trans h.times⟩

/-- A moment in which the token is left alone, and a track does not call. -/
theorem of_sameFor (moment : s.SameMoment True s') (same : s.SameFor i s') : s.Alike i i s' :=
  ⟨moment.now, moment.cancelled trivial, by rw [timesOf, timesOf, same.1]⟩

theorem tellAll (h : s.Alike i j s') (es es' : List Event) :
    (s.tellAll es).Alike i j (s'.tellAll es') where
  now := by rw [now_tellAll, now_tellAll, h.now]
  cancelled := by rw [cancelled_tellAll, cancelled_tellAll, h.cancelled]
  times := by
    have here := (s.sameFor_tellAll es i).1
    have there := (s'.sameFor_tellAll es' j).1
    rw [timesOf, timesOf, here, there]
    exact h.times

theorem tell (h : s.Alike i j s') (e e' : Event) : (s.tell e).Alike i j (s'.tell e') :=
  h.tellAll [e] [e']

theorem settle (h : s.Alike i j s') (es es' : List Ending) :
    (s.settle es).Alike i j (s'.settle es') := ⟨h.now, h.cancelled, h.times⟩

/-- A call gets the same answer on both stages. -/
theorem call {renderer : Renderer σ} (steady : renderer.IsSteady) (h : s.Alike i j s')
    {r : Request} {s₁ s₂ : Stage σ} {t t' : Option Tone} (called : s.call renderer i r = (s₁, t))
    (called' : s'.call renderer j r = (s₂, t')) : s₁.Alike i j s₂ ∧ t' = t := by
  obtain ⟨-, -, -, -, -, now, -⟩ := call_spec called
  obtain ⟨-, -, -, -, -, now', -⟩ := call_spec called'
  have token := steady.leavesToken.call called
  have token' := steady.leavesToken.call called'
  refine ⟨⟨?_, ?_, ?_⟩, ?_⟩
  · rw [now', h.now, now]
  · rw [token', h.cancelled, token]
  · rw [timesOf_call called, timesOf_call called', h.times, h.now]
  · obtain ⟨answer, steady⟩ := steady
    have tone : (renderer.react s.memory ⟨s.now, s.cancelled, s.bus⟩ r).2.tone = t :=
      congrArg Prod.snd called
    have tone' : (renderer.react s'.memory ⟨s'.now, s'.cancelled, s'.bus⟩ r).2.tone = t' :=
      congrArg Prod.snd called'
    rw [← tone, ← tone', (steady _ _ r).2, (steady _ _ r).2, h.now, h.cancelled]

end Alike

end Stage

/-! ### Players -/

namespace Player

/-- The player with another number. -/
def renumber (j : Nat) (p : Player) : Player := { p with index := j }

/-- A player and a stage, and the player with another number on a stage that is alike. -/
structure Mirrors (i j : Nat) (a b : Stage σ × Player) : Prop where
  index : a.2.index = i
  stage : a.1.Alike i j b.1
  player : b.2 = a.2.renumber j

variable {config : Config} {renderer : Renderer σ} {i j : Nat} {s s' : Stage σ} {p p' : Player}

namespace Mirrors

theorem now (h : Mirrors i j (s, p) (s', p')) : s'.now = s.now := h.stage.now

theorem cancelled (h : Mirrors i j (s, p) (s', p')) : s'.cancelled = s.cancelled :=
  h.stage.cancelled

theorem eq (h : Mirrors i j (s, p) (s', p')) : p' = p.renumber j := h.player

theorem collect (h : Mirrors i j (s, p) (s', p')) : Mirrors i j (p.collect s) (p'.collect s') := by
  obtain rfl := h.eq
  exact ⟨h.index, h.stage.tellAll _ _, rfl⟩

theorem finish (h : Mirrors i j (s, p) (s', p')) : Mirrors i j (p.finish s) (p'.finish s') := by
  obtain rfl := h.eq
  rw [finish_eq, finish_eq, h.cancelled]
  exact ⟨h.index, h.stage.tellAll _ _, rfl⟩

theorem join (h : Mirrors i j (s, p) (s', p')) : Mirrors i j (p.join s) (p'.join s') := by
  have counted := h.collect
  have ringing : p'.ringing = p.ringing := by
    rw [h.eq]
    rfl
  rw [join_eq, join_eq, ringing]
  split
  · exact counted.finish
  · exact ⟨counted.index, counted.stage, by rw [counted.player]; rfl⟩

theorem stop (h : Mirrors i j (s, p) (s', p')) : Mirrors i j (p.stop s) (p'.stop s') := by
  obtain rfl := h.eq
  exact join ⟨h.index, h.stage.tell _ _, rfl⟩

theorem crash (h : Mirrors i j (s, p) (s', p')) : Mirrors i j (p.crash s) (p'.crash s') := by
  obtain rfl := h.eq
  exact ⟨h.index, h.stage.tell _ _, rfl⟩

/-- It is kept while the two schedule. -/
theorem together (config : Config) (steady : renderer.IsSteady) (i j : Nat) :
    SchedulingTogether config renderer renderer (Mirrors i j) (Mirrors i j) where
  now h := h.now
  cancelled h := h.cancelled
  cursor h := by rw [h.eq, renumber]
  collect h := h.collect
  call := by
    rintro s p s' _ ⟨rfl, stage, rfl⟩ n duration frequency s₁ s₂ t t' first second
    obtain ⟨alike, rfl⟩ := stage.call steady first second
    cases t' <;> exact ⟨rfl, rfl, alike, rfl⟩
  advance := by
    rintro s p s' _ ⟨rfl, stage, rfl⟩ left cursor
    exact ⟨rfl, stage, rfl⟩
  wait := by
    rintro s p s' _ ⟨rfl, stage, rfl⟩
    exact ⟨rfl, stage.tell _ _, rfl⟩
  pause := by
    rintro s p s' _ ⟨rfl, stage, rfl⟩ -
    exact ⟨rfl, stage, rfl⟩
  join h := h.join
  stop h := h.stop
  crash h := h.crash

theorem play (steady : renderer.IsSteady) (h : Mirrors i j (s, p) (s', p')) :
    Mirrors i j (p.play config renderer s) (p'.play config renderer s') := by
  obtain ⟨rfl, stage, rfl⟩ := h
  refine (together config steady p.index j).play rfl rfl (fun _ => ?_) (fun w _ => ?_) fun _ => ?_
  · exact ⟨rfl, stage.tell _ _, rfl⟩
  · exact ⟨⟨rfl, stage, rfl⟩, rfl, stage, rfl⟩
  · exact ⟨rfl, stage, rfl⟩

/-- Tones go on in the same way, and end with the same outcomes. -/
theorem sound (stage : s.Alike i j s') (voices : List Voice) :
    (sound s i voices).1.Alike i j (sound s' j voices).1 ∧
      (sound s' j voices).2 = (sound s i voices).2 := by
  have outcomes (vs : List Voice) (track : Nat) :
      (vs.filterMap (·.ending? track)).map (·.outcome) = vs.filterMap (·.tone.outcome?) := by
    rw [List.map_filterMap]
    refine List.filterMap_congr fun v _ => ?_
    rw [Voice.ending?, Option.map_map]
    cases v.tone.outcome? <;> rfl
  refine ⟨(stage.tellAll _ _).settle _ _, ?_⟩
  simp only [Player.sound, outcomes, stage.now, stage.cancelled]

theorem soundOlder (h : Mirrors i j (s, p) (s', p')) :
    Mirrors i j (p.soundOlder s) (p'.soundOlder s') := by
  obtain ⟨rfl, stage, rfl⟩ := h
  obtain ⟨alike, same⟩ := sound stage p.older
  refine ⟨rfl, alike, ?_⟩
  simp only [Player.soundOlder, renumber, same]

theorem soundFresh (h : Mirrors i j (s, p) (s', p')) :
    Mirrors i j (p.soundFresh s) (p'.soundFresh s') := by
  obtain ⟨rfl, stage, rfl⟩ := h
  obtain ⟨alike, same⟩ := sound stage p.fresh
  refine ⟨rfl, alike, ?_⟩
  simp only [Player.soundFresh, renumber, same]

theorem soundAll (h : Mirrors i j (s, p) (s', p')) :
    Mirrors i j (p.soundAll s) (p'.soundAll s') := by
  have both : Mirrors i j (p.soundBoth s) (p'.soundBoth s') := h.soundOlder.soundFresh
  have phase : p'.phase = p.phase := by rw [h.eq, renumber]
  rw [soundAll_eq, soundAll_eq, phase]
  split
  · exact both.join
  · exact both

end Mirrors

end Player

end SongSheet.Playback
