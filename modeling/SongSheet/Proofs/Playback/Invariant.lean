/-
SongSheet/Proofs/Playback/Invariant.lean

What holds of each member of an ensemble, however its moves are ordered.

The members share a stage, but each writes only its own part of it: the calls and
endings that bear the number of its track.  So a property of one member and of the
stage is kept by all moves as soon as the steps and tones of that member keep it, and
it looks only at the member's own part of the stage (`MemberInvariant`).  A member that
broke down does nothing any more, so it may be left out (`MemberInvariant.orBroken`).
-/
import SongSheet.Proofs.Playback.Agreement

namespace SongSheet.Playback

open Relation

variable {σ : Type}

/-! ### The part of a track in the stage -/

namespace Stage

/-- The calls of a track, the first one first. -/
def callsOf (s : Stage σ) (i : Nat) : List Call := s.calls.reverse.filter (·.track == i)

/-- What a track asked for, first things first. -/
def requestsOf (s : Stage σ) (i : Nat) : List Request := (s.callsOf i).map (·.request)

/-- The ends of the tones of a track, the first one first. -/
def endingsOf (s : Stage σ) (i : Nat) : List Ending := s.endings.reverse.filter (·.track == i)

/-- Nothing changes in the part of a track. -/
def SameFor (i : Nat) (s s' : Stage σ) : Prop :=
  s'.callsOf i = s.callsOf i ∧ s'.endingsOf i = s.endingsOf i

variable {i : Nat} {s s' s'' : Stage σ}

theorem sameFor_of_eq (calls : s'.calls = s.calls) (endings : s'.endings = s.endings) (i : Nat) :
    s.SameFor i s' := by
  rw [SameFor, callsOf, callsOf, endingsOf, endingsOf, calls, endings]
  exact ⟨rfl, rfl⟩

theorem sameFor_tell (s : Stage σ) (e : Event) (i : Nat) : s.SameFor i (s.tell e) :=
  sameFor_of_eq (calls_tell s e) (endings_tell s e) i

theorem sameFor_tellAll (s : Stage σ) (es : List Event) (i : Nat) : s.SameFor i (s.tellAll es) :=
  sameFor_of_eq (calls_tellAll s es) (endings_tellAll s es) i

theorem SameFor.trans (h : s.SameFor i s') (k : s'.SameFor i s'') : s.SameFor i s'' :=
  ⟨k.1.trans h.1, k.2.trans h.2⟩

theorem SameFor.requestsOf (h : s.SameFor i s') : s'.requestsOf i = s.requestsOf i := by
  rw [Stage.requestsOf, Stage.requestsOf, h.1]

/-- A call becomes the last of its track. -/
theorem callsOf_of_call {renderer : Renderer σ} {r : Request} {t : Option Tone}
    (h : s.call renderer i r = (s', t)) :
    ∃ c : Call, c.request = r ∧ c.instant = s.now ∧ s'.callsOf i = s.callsOf i ++ [c] := by
  obtain ⟨c, track, instant, request, calls, -⟩ := call_spec h
  refine ⟨c, request, instant, ?_⟩
  simp [callsOf, calls, track]

/-- A call is none of another track. -/
theorem sameFor_of_call {renderer : Renderer σ} {r : Request} {t : Option Tone} {j : Nat}
    (h : s.call renderer i r = (s', t)) (hj : j ≠ i) : s.SameFor j s' := by
  obtain ⟨c, track, -, -, calls, -, endings, -⟩ := call_spec h
  simp [SameFor, callsOf, endingsOf, calls, endings, track, hj.symm]

/-- Tones that end are added to those of their track. -/
theorem endingsOf_settle (s : Stage σ) {i : Nat} {es : List Ending} (h : ∀ e ∈ es, e.track = i) :
    (s.settle es).endingsOf i = s.endingsOf i ++ es := by
  have own : es.filter (·.track == i) = es :=
    List.filter_eq_self.2 fun e he => by simpa using h e he
  simp [endingsOf, settle, own]

/-- Tones that end are none of another track. -/
theorem sameFor_settle (s : Stage σ) {i j : Nat} {es : List Ending} (h : ∀ e ∈ es, e.track = i)
    (hj : j ≠ i) : s.SameFor j (s.settle es) := by
  have none : es.filter (·.track == j) = [] := by
    apply List.filter_eq_nil_iff.2
    intro e he
    simpa [h e he] using hj.symm
  simp [SameFor, callsOf, endingsOf, settle, none]

end Stage

/-! ### Members write their own part only -/

open Stage

/-- The end of a playback is told, and changes nothing else. -/
theorem Player.sameFor_finish (s : Stage σ) (p : Player) (i : Nat) :
    s.SameFor i (p.finish s).1 := by
  rw [Player.finish_eq]
  exact s.sameFor_tellAll _ i

/-- A step stays in the part of the member's track. -/
theorem Member.Step.sameFor {config : Config} {renderer : Renderer σ} {s s' : Stage σ}
    {m m' : Member} (h : m.Step config renderer s s' m') {j : Nat} (hj : j ≠ m.player.index) :
    s.SameFor j s' := by
  have nothing : s.SameFor j s := ⟨rfl, rfl⟩
  cases h with
  | start | ahead | stop | tooLate | noLength | beyond => exact s.sameFor_tell _ j
  | exhausted | near | skip | pause | wake | cut | goOn | turn | advance => exact nothing
  | count => exact s.sameFor_tellAll _ j
  | finish => exact Player.sameFor_finish s _ j
  | call _ called => exact sameFor_of_call called hj
  | refused _ called => exact (sameFor_of_call called hj).trans (sameFor_tell _ _ j)

/-- A step does not change the number of a track. -/
theorem Member.Step.index {config : Config} {renderer : Renderer σ} {s s' : Stage σ}
    {m m' : Member} (h : m.Step config renderer s s' m') : m'.player.index = m.player.index := by
  cases h <;> rfl

/-! ### Members that broke down -/

namespace Member

/-- A member broke down. -/
def IsBroken (m : Member) : Prop := m.place = .rest ∧ m.player.phase = .crashed

variable {config : Config} {renderer : Renderer σ} {s s' : Stage σ} {m m' : Member}

/-- A member that broke down does nothing any more. -/
theorem IsBroken.not_step (h : m.IsBroken) : ¬ m.Step config renderer s s' m' := by
  obtain ⟨p, place⟩ := m
  obtain ⟨rfl, crashed⟩ : place = .rest ∧ p.phase = .crashed := h
  intro step
  cases step with
  | start phase | wake phase | cut phase | finish phase =>
      rw [crashed] at phase
      cases phase
  | count _ here =>
      rcases here with here | ⟨-, phase⟩
      · cases here
      · rw [crashed] at phase
        cases phase

/-- The ends of tones do not mend a member. -/
theorem IsBroken.sound {p' : Player} (h : m.IsBroken) (sounds : m.player.Sounds s s' p') :
    IsBroken ⟨p', m.place⟩ := by
  obtain ⟨endings, older, fresh, -, -, rfl, rfl⟩ := sounds
  exact h

end Member

/-! ### Invariants of members -/

/-- A property of a member, its track and the stage that is kept by what the member does,
and that depends on the part of the track in the stage only. -/
structure MemberInvariant (setup : Setup σ) (P : Track → Stage σ → Member → Prop) : Prop where
  initial : ∀ {i t s}, s.callsOf i = [] → s.endingsOf i = [] → P t s ⟨Player.ofTrack i t, .rest⟩
  step : ∀ {t s s' m m'}, m.Step setup.config setup.renderer s s' m' → P t s m → P t s' m'
  sound : ∀ {t s s' m p'}, m.player.Sounds s s' p' → P t s m → P t s' ⟨p', m.place⟩
  frame : ∀ {t s s' m}, s.SameFor m.player.index s' → P t s m → P t s' m

namespace MemberInvariant

open Ensemble

variable {setup : Setup σ} {P : Track → Stage σ → Member → Prop}

/-- A property that is kept until a member breaks down. -/
theorem orBroken
    (initial : ∀ {i t s}, s.callsOf i = [] → s.endingsOf i = [] → P t s ⟨.ofTrack i t, .rest⟩)
    (step : ∀ {t s s' m m'}, m.Step setup.config setup.renderer s s' m' → P t s m →
      m'.IsBroken ∨ P t s' m')
    (sound : ∀ {t s s' m p'}, m.player.Sounds s s' p' → P t s m → P t s' ⟨p', m.place⟩)
    (frame : ∀ {t s s' m}, s.SameFor m.player.index s' → P t s m → P t s' m) :
    MemberInvariant setup fun t s m => m.IsBroken ∨ P t s m where
  initial calls endings := .inr (initial calls endings)
  step taken h := by
    rcases h with broken | h
    · exact absurd taken broken.not_step
    · exact step taken h
  sound sounds h := h.imp (·.sound sounds) (sound sounds)
  frame same h := h.imp id (frame same)

/-- Two invariants hold together. -/
theorem and {Q : Track → Stage σ → Member → Prop} (h : MemberInvariant setup P)
    (k : MemberInvariant setup Q) : MemberInvariant setup fun t s m => P t s m ∧ Q t s m where
  initial calls endings := ⟨h.initial calls endings, k.initial calls endings⟩
  step taken both := ⟨h.step taken both.1, k.step taken both.2⟩
  sound sounds both := ⟨h.sound sounds both.1, k.sound sounds both.2⟩
  frame same both := ⟨h.frame same both.1, k.frame same both.2⟩

/-- The members bear the numbers of their tracks, and have a property each. -/
def All (P : Track → Stage σ → Member → Prop) (sheet : Sheet) (c : Ensemble σ) : Prop :=
  ∀ i m, c.members[i]? = some m →
    m.player.index = i ∧ ∀ t, sheet.tracks[i]? = some t → P t c.stage m

namespace All

variable {sheet : Sheet} {c : Ensemble σ}

/-- A property of all tracks before they start. -/
theorem start (setup : Setup σ) (sheet : Sheet)
    (initial : ∀ i t, P t (Performance.ofSheet setup sheet).stage ⟨.ofTrack i t, .rest⟩) :
    All P sheet (ofPerformance (Performance.ofSheet setup sheet)) := by
  intro i m hm
  simp only [ofPerformance, Performance.ofSheet, List.getElem?_map, List.getElem?_mapIdx,
    Option.map_map, Option.map_eq_some_iff] at hm
  obtain ⟨t, ht, rfl⟩ := hm
  refine ⟨rfl, fun t' ht' => ?_⟩
  obtain rfl : t = t' := Option.some.inj (ht.symm.trans ht')
  exact initial i t

/-- One member does something, and the others have their properties still. -/
theorem set (all : All P sheet c) {i : Nat} {m m' : Member} {s' : Stage σ}
    (found : c.members[i]? = some m) (index : m'.player.index = m.player.index)
    (own : ∀ t, P t c.stage m → P t s' m')
    (other : ∀ t q, q.player.index ≠ m.player.index → P t c.stage q → P t s' q) :
    All P sheet ⟨s', c.members.set i m'⟩ := by
  intro j q hq
  obtain ⟨rfl, holds⟩ := all i m found
  rcases getElem?_set_cases found hq with ⟨rfl, rfl⟩ | ⟨hj, hq⟩
  · exact ⟨index, fun t ht => own t (holds t ht)⟩
  · obtain ⟨rfl, holds'⟩ := all j q hq
    exact ⟨rfl, fun t ht => other t q hj (holds' t ht)⟩

/-- The member of a track has the property. -/
theorem member (all : All P sheet c) (length : c.members.length = sheet.tracks.length) {i : Nat}
    {t : Track} (track : sheet.tracks[i]? = some t) :
    ∃ m, c.members[i]? = some m ∧ m.player.index = i ∧ P t c.stage m := by
  have bound : i < c.members.length := length ▸ (List.getElem?_eq_some_iff.1 track).1
  have found := List.getElem?_eq_getElem bound
  obtain ⟨index, holds⟩ := all i _ found
  exact ⟨_, found, index, holds t track⟩

end All

/-- A move keeps an invariant of all members. -/
theorem all_move (inv : MemberInvariant setup P) {may : Ensemble σ → Nat → Prop} {sheet : Sheet}
    {c c' : Ensemble σ} (h : Move setup may c c') (all : All P sheet c) : All P sheet c' := by
  cases h with
  | step _ found step =>
      exact all.set found step.index (fun t => inv.step step) fun t q hq =>
        inv.frame (step.sameFor hq)
  | sound found sounds =>
      have own (t : Track) := inv.sound (t := t) sounds
      obtain ⟨endings, older, fresh, track, -, rfl, rfl⟩ := sounds
      exact all.set found rfl own fun t q hq => inv.frame (sameFor_settle _ track hq)
  | meanwhile h =>
      intro i m hm
      obtain ⟨rfl, holds⟩ := all i m hm
      exact ⟨rfl, fun t ht => inv.frame (sameFor_of_eq h.calls h.endings _) (holds t ht)⟩

/-- An invariant holds of all members of an ensemble that is reached. -/
theorem all_of_reached (inv : MemberInvariant setup P) {may : Ensemble σ → Nat → Prop}
    {sheet : Sheet} {c : Ensemble σ} (h : Reached setup sheet may c) : All P sheet c := by
  induction h with
  | refl => exact .start setup sheet fun i t => inv.initial rfl rfl
  | tail _ move ih => exact inv.all_move move ih

end MemberInvariant

/-- There is a member for every track. -/
theorem Ensemble.length_of_reached {setup : Setup σ} {sheet : Sheet}
    {may : Ensemble σ → Nat → Prop} {c : Ensemble σ} (h : Reached setup sheet may c) :
    c.members.length = sheet.tracks.length := by
  induction h with
  | refl => simp [ofPerformance, Performance.ofSheet]
  | tail _ move ih =>
      rw [← ih]
      cases move with
      | step | sound => exact List.length_set
      | meanwhile => rfl

/-- A member has a track. -/
theorem Ensemble.exists_track {setup : Setup σ} {sheet : Sheet} {may : Ensemble σ → Nat → Prop}
    {c : Ensemble σ} (h : Reached setup sheet may c) {i : Nat} {m : Member}
    (found : c.members[i]? = some m) : ∃ t, sheet.tracks[i]? = some t := by
  have bound : i < sheet.tracks.length :=
    length_of_reached h ▸ (List.getElem?_eq_some_iff.1 found).1
  exact ⟨_, List.getElem?_eq_getElem bound⟩

/-- An invariant holds of the member of a track. -/
theorem MemberInvariant.member {setup : Setup σ} {P : Track → Stage σ → Member → Prop}
    (inv : MemberInvariant setup P) {may : Ensemble σ → Nat → Prop} {sheet : Sheet}
    {c : Ensemble σ} (h : Ensemble.Reached setup sheet may c) {i : Nat} {t : Track}
    (track : sheet.tracks[i]? = some t) :
    ∃ m, c.members[i]? = some m ∧ m.player.index = i ∧ P t c.stage m :=
  (inv.all_of_reached h).member (Ensemble.length_of_reached h) track

end SongSheet.Playback
