/-
SongSheet/Proofs/Playback/Ledger.lean

The books of the tones that would be heard.

A request that is logged has a tone that waits to tell of itself until the request starts.
It is told of then, or lost, when the token is fired or the track breaks down before.  So books
are kept of the calls that wait for this (`Player.Awaits`).  Whatever happens in a moment moves
calls from there to those that are told of and to those that are lost, and enters new ones;
no call is moved twice, and none drops out of the books (`Turn.calls`).  What happens to one
player is of no concern to the others (`Turn.frame`), so that the books of all players are kept
by what each of them does (`Fares.trans`, `Fares.cons`).
-/
import SongSheet.Proofs.Playback.Logging

namespace SongSheet.Playback

open Clock

variable {σ : Type}

/-! ### Calls and what is told of them -/

/-- The call is for a tone that would be heard. -/
def Call.isAudible (c : Call) : Bool := !c.request.isRest

/-- The instant at which the tone of a call would be heard: when its request starts, at a whole
millisecond, and not before the call. -/
def Call.heardAt (c : Call) : Nat := max c.instant (tick c.request.start)

/-- An event tells of a tone that is heard. -/
def Event.isTone : Event → Bool
  | said (.sounds _) _ => true
  | _ => false

/-- The messages of failures are others. -/
theorem RenderError.message_ne_tone (e : RenderError) : e.message ≠ "tone" := by
  have longer (rest : String) : "tone renderer failed at " ++ rest ≠ "tone" := by
    intro same
    have length := congrArg String.length same
    rw [String.length_append, show "tone renderer failed at ".length = 24 from rfl,
      show "tone".length = 4 from rfl] at length
    omega
  unfold RenderError.message
  generalize String.ofList (Layout.running.render e.frequency) = frequency
  generalize e.reason = reason
  have whole := longer (frequency ++ " Hz: " ++ reason)
  rw [← String.append_assoc, ← String.append_assoc] at whole
  exact whole

/-- Its message tells such an event from the others. -/
theorem Event.isTone_iff (e : Event) : e.isTone = true ↔ e.message = "tone" := by
  cases e with
  | building e => cases e <;> simp [isTone, message]
  | said r gain => cases r <;> simp [isTone, message]
  | toneFailed track e => simp [isTone, message, e.message_ne_tone]
  | _ => simp [isTone, message]

theorem Event.isTone_ofOutcome {track : String} {o : Outcome} {e : Event}
    (h : Event.ofOutcome track o = some e) : e.isTone = false := by
  cases o with
  | completed => cases h
  | failed | crashed =>
      cases h
      rfl

namespace Stage

/-- The events that tell of tones, the newest first. -/
def tones (s : Stage σ) : List (Nat × Event) := s.events.filter (·.2.isTone)

/-- What is told of the tone of a call when it is heard at the present instant. -/
def heard (s : Stage σ) (c : Call) : Nat × Event := (s.now, .said (.sounds c.request) s.bus.gain)

theorem tones_tell_of_not {e : Event} (h : e.isTone = false) (s : Stage σ) :
    (s.tell e).tones = s.tones :=
  List.filter_cons_of_neg (by simp [h])

theorem tones_tellAll (s : Stage σ) (es : List Event) :
    (s.tellAll es).tones = ((es.filter (·.isTone)).map (s.now, ·)).reverse ++ s.tones := by
  induction es generalizing s with
  | nil => rfl
  | cons e es ih =>
      show ((s.tell e).tellAll es).tones = _
      rw [ih, now_tell]
      cases tone : e.isTone with
      | true =>
          have here : (s.tell e).tones = (s.now, e) :: s.tones := List.filter_cons_of_pos tone
          rw [here, List.filter_cons_of_pos tone, List.map_cons, List.reverse_cons,
            List.append_assoc, List.singleton_append]
      | false => rw [tones_tell_of_not tone, List.filter_cons_of_neg (by simp [tone])]

end Stage

/-! ### Tones -/

namespace Tone

/-- The request of which it is still to be told that it is heard. -/
def awaited? : Tone → Option Request
  | wait _ (say (.sounds r) _) _ => some r
  | _ => none

variable {r : Request} {t : Tone}

theorem awaited?_logging (r : Request) :
    (logging r).awaited? = if r.isRest then none else some r := by
  rw [logging_eq]
  by_cases rest : r.isRest = true
  · rw [if_pos rest, if_pos rest]
    rfl
  · rw [if_neg rest, if_neg rest]
    rfl

theorem awaited?_sounding (r : Request) : (sounding r).awaited? = none := rfl

/-- A tone that is to be told of is not over. -/
theorem outcome?_of_awaited? (h : t.awaited? = some r) : t.outcome? = none := by
  cases t with
  | ended => cases h
  | _ => rfl

/-- With the token fired, a tone ends, and is not heard. -/
theorem Logs.poll_fired (logs : t.Logs r) (now : Nat) :
    ∃ said, t.poll now true = ([said], ended .completed) ∧
      ∀ gain, (Event.said said gain).isTone = false := by
  rcases logs with rfl | rfl
  · exact ⟨.cancelledBeforeStart r.frequency, rfl, fun _ => rfl⟩
  · exact ⟨.stoppedEarly r.frequency, rfl, fun _ => rfl⟩

theorem remarks_say (said : Remark) (next : Tone) (now : Nat) (cancelled : Bool) :
    ((say said next).poll now cancelled).1 = said :: (next.poll now cancelled).1 := by
  rw [poll]

/-- A tone that is heard says nothing more, unless it is cut. -/
theorem remarks_sounding (r : Request) (now : Nat) : ((sounding r).poll now false).1 = [] := by
  rw [sounding, poll, if_neg Bool.false_ne_true]
  split
  · rw [poll_ended]
  · rfl

/-- A tone says that it is heard when it starts. -/
theorem remarks_logging (r : Request) (now : Nat) :
    ((logging r).poll now false).1 =
      ((logging r).awaited?.toList.filter (tick ·.start ≤ now)).map .sounds := by
  rw [awaited?_logging, logging_eq, poll, if_neg Bool.false_ne_true]
  by_cases due : tick r.start ≤ now
  · rw [if_pos due]
    by_cases rest : r.isRest = true
    · rw [if_pos rest, if_pos rest, remarks_sounding]
      rfl
    · rw [if_neg rest, if_neg rest, Option.toList_some, List.filter_singleton,
        decide_eq_true due, remarks_say, remarks_sounding]
      rfl
  · rw [if_neg due]
    split
    · rfl
    · rw [Option.toList_some, List.filter_singleton, decide_eq_false due]
      rfl

/-- What is told of a tone that is not cut: that it is heard, when that is due. -/
theorem Logs.told (logs : t.Logs r) (now : Nat) (gain : Single) :
    ((t.poll now false).1.map (Event.said · gain)).filter (·.isTone) =
      (t.awaited?.toList.filter (tick ·.start ≤ now)).map fun r => .said (.sounds r) gain := by
  rcases logs with rfl | rfl
  · rw [remarks_logging, List.map_map]
    exact List.filter_eq_self.2 fun e he => by
      obtain ⟨r, -, rfl⟩ := List.mem_map.1 he
      rfl
  · rw [remarks_sounding, awaited?_sounding]
    rfl

theorem awaited?_poll_sounding (r : Request) (now : Nat) :
    ((sounding r).poll now false).2.awaited? = none := by
  rw [poll_sounding]
  split
  · rfl
  · rfl

/-- It is told of no more then, and otherwise goes on to be. -/
theorem Logs.awaited?_poll (logs : t.Logs r) (now : Nat) :
    (t.poll now false).2.awaited?.toList =
      t.awaited?.toList.filter (now < tick ·.start) := by
  rcases logs with rfl | rfl
  · rw [poll_logging]
    by_cases due : tick r.start ≤ now
    · rw [if_pos due, awaited?_poll_sounding, awaited?_logging]
      split
      · rfl
      · rw [Option.toList_some, List.filter_singleton, decide_eq_false (Nat.not_lt_of_le due)]
        rfl
    · rw [if_neg due, awaited?_logging]
      split
      · rfl
      · rw [Option.toList_some, List.filter_singleton, decide_eq_true (Nat.lt_of_not_le due)]
        rfl
  · rw [awaited?_poll_sounding, awaited?_sounding]
    rfl

end Tone

/-! ### What happens in a moment -/

/-- What happens in a moment to the tones that would be heard.  Before, the calls in `before`
wait for their tones; of these, and of the calls that are made, some are told, some are lost, and
those in `after` are left. -/
structure Turn (s s' : Stage Unit) (told lost before after : List Call) : Prop where
  moment : s.SameMoment True s'
  bus : s'.bus = s.bus
  calls : (told ++ lost ++ after ++ s.calls.filter (·.isAudible)).Perm
    (s'.calls.filter (·.isAudible) ++ before)
  tones : s'.tones.Perm (told.map s.heard ++ s.tones)
  /-- A tone that ends has completed. -/
  endings : ∀ e ∈ s'.endings, e ∈ s.endings ∨ e.outcome = .completed
  told : ∀ c ∈ told, s.cancelled = false ∧ c.heardAt = s.now
  lost : ∀ c ∈ lost, s.now ≤ c.heardAt

namespace Turn

variable {s s' s'' : Stage Unit} {told told' lost lost' before after after' : List Call}

theorem refl : Turn s s [] [] before before where
  moment := .refl
  bus := rfl
  calls := List.perm_append_comm
  tones := .refl _
  endings _ he := .inl he
  told := nofun
  lost := nofun

/-- One thing after another. -/
theorem trans (h : Turn s s' told lost before after) (k : Turn s' s'' told' lost' after after') :
    Turn s s'' (told ++ told') (lost ++ lost') before after' where
  moment := h.moment.trans k.moment
  bus := k.bus.trans h.bus
  calls := by
    -- what the one leaves, the other finds
    refine List.perm_iff_count.2 fun c => ?_
    have first := h.calls.count_eq c
    have second := k.calls.count_eq c
    simp only [List.count_append] at first second ⊢
    omega
  tones := by
    have same : s'.heard = s.heard := by
      funext c
      rw [Stage.heard, Stage.heard, h.moment.now, h.bus]
    refine k.tones.trans ?_
    rw [same, List.map_append]
    refine (h.tones.append_left _).trans ?_
    rw [← List.append_assoc]
    exact List.perm_append_comm.append_right _
  endings e he := by
    rcases k.endings e he with old | completed
    · exact h.endings e old
    · exact .inr completed
  told := List.forall_mem_append.2 ⟨h.told, fun c hc => by
    obtain ⟨unfired, now⟩ := k.told c hc
    exact ⟨(h.moment.cancelled trivial).symm.trans unfired, now.trans h.moment.now⟩⟩
  lost := List.forall_mem_append.2 ⟨h.lost, fun c hc => h.moment.now ▸ k.lost c hc⟩

/-- Others wait on meanwhile. -/
theorem frame (h : Turn s s' told lost before after) (earlier later : List Call) :
    Turn s s' told lost (earlier ++ before ++ later) (earlier ++ after ++ later) where
  moment := h.moment
  bus := h.bus
  calls := by
    refine List.perm_iff_count.2 fun c => ?_
    have same := h.calls.count_eq c
    simp only [List.count_append] at same ⊢
    omega
  tones := h.tones
  endings := h.endings
  told := h.told
  lost := h.lost

/-- Nothing happens to the calls that wait. -/
theorem idle (h : Turn s s' [] [] [] []) (before : List Call) : Turn s s' [] [] before before := by
  have framed := h.frame before []
  rwa [List.append_nil, List.append_nil] at framed

/-- All that wait are lost. -/
theorem lose (h : Turn s s' [] [] [] []) (lost : ∀ c ∈ before, s.now ≤ c.heardAt) :
    Turn s s' [] before before [] where
  moment := h.moment
  bus := h.bus
  calls := by
    have calls := (h.idle before).calls
    simpa using calls
  tones := h.tones
  endings := h.endings
  told := nofun
  lost := lost

/-- Nothing happens but that something is told, and not of a tone. -/
theorem of_tellAll (s : Stage Unit) {es : List Event} (none : ∀ e ∈ es, e.isTone = false) :
    Turn s (s.tellAll es) [] [] [] [] where
  moment := ⟨s.now_tellAll es, fun _ => s.cancelled_tellAll es⟩
  bus := rfl
  calls := by simp
  tones := by
    have nothing : es.filter (·.isTone) = [] :=
      List.filter_eq_nil_iff.2 fun e he => by simp [none e he]
    rw [Stage.tones_tellAll, nothing]
    exact .refl _
  endings _ he := .inl he
  told := nofun
  lost := nofun

theorem of_tell (s : Stage Unit) {e : Event} (none : e.isTone = false) :
    Turn s (s.tell e) [] [] [] [] :=
  of_tellAll s (List.forall_mem_singleton.2 none)

end Turn

/-! ### Players and their calls -/

/-- The calls for which a player waits to tell of a tone: those made before it last went to wait,
and those made since. -/
structure Player.Awaits (now : Nat) (q : Player) (older fresh : List Call) : Prop where
  ofOlder : older.map (·.request) = q.older.filterMap (·.tone.awaited?)
  ofFresh : fresh.map (·.request) = q.fresh.filterMap (·.tone.awaited?)
  calls : ∀ c ∈ older ++ fresh, c.track = q.index ∧ c.instant ≤ now ∧ now ≤ c.heardAt
  tones : ∀ v ∈ q.ringing, ∃ r, v.tone.Logs r
  silent : q.phase = .crashed → q.ringing = []

/-- The calls for which players wait. -/
inductive Awaiting (now : Nat) : List Player → List Call → Prop
  | nil : Awaiting now [] []
  | cons {q : Player} {ps : List Player} {older fresh left : List Call} :
      q.Awaits now older fresh → Awaiting now ps left →
      Awaiting now (q :: ps) (older ++ fresh ++ left)

/-- The player of a track broke down. -/
def HasCrashed (ps : List Player) (i : Nat) : Prop := ∃ q ∈ ps, q.index = i ∧ q.phase = .crashed

/-- The player of a track did not break down. -/
def IsSound (ps : List Player) (i : Nat) : Prop := ∃ q ∈ ps, q.index = i ∧ q.phase ≠ .crashed

theorem hasCrashed_cons {q : Player} {ps : List Player} {i : Nat} :
    HasCrashed (q :: ps) i ↔ HasCrashed [q] i ∨ HasCrashed ps i := by
  simp [HasCrashed]

theorem isSound_cons {q : Player} {ps : List Player} {i : Nat} :
    IsSound (q :: ps) i ↔ IsSound [q] i ∨ IsSound ps i := by
  simp [IsSound]

/-- What players do with the calls that wait: they tell of tones while they are sound, and lose
none unless the token is fired or they break down. -/
structure Fares (s : Stage Unit) (ps : List Player) (s' : Stage Unit) (ps' : List Player) :
    Prop where
  crashed : ∀ i, HasCrashed ps i → HasCrashed ps' i
  sound : ∀ i, IsSound ps' i → IsSound ps i
  turn : ∀ before, Awaiting s.now ps before → ∃ told lost after,
    Awaiting s'.now ps' after ∧ Turn s s' told lost before after ∧
      (∀ c ∈ told, IsSound ps c.track) ∧
      ∀ c ∈ lost, s.cancelled = true ∨ HasCrashed ps' c.track

namespace Fares

variable {s s' s'' : Stage Unit} {ps ps' ps'' : List Player} {q q' : Player}

theorem trans (h : Fares s ps s' ps') (k : Fares s' ps' s'' ps'') : Fares s ps s'' ps'' where
  crashed i hi := k.crashed i (h.crashed i hi)
  sound i hi := h.sound i (k.sound i hi)
  turn before waits := by
    obtain ⟨told, lost, mid, waits', turn, sound, why⟩ := h.turn before waits
    obtain ⟨told', lost', after, waits'', turn', sound', why'⟩ := k.turn mid waits'
    refine ⟨told ++ told', lost ++ lost', after, waits'', turn.trans turn', ?_, ?_⟩
    · exact List.forall_mem_append.2 ⟨sound, fun c hc => h.sound _ (sound' c hc)⟩
    · refine List.forall_mem_append.2 ⟨fun c hc => ?_, fun c hc => ?_⟩
      · exact (why c hc).imp_right (k.crashed _)
      · exact (why' c hc).imp_left (turn.moment.cancelled trivial).symm.trans

/-- Nothing is done, and something else told. -/
theorem of_turn (turn : Turn s s' [] [] [] []) : Fares s ps s' ps where
  crashed _ := id
  sound _ := id
  turn before waits := by
    refine ⟨[], [], before, ?_, turn.idle before, nofun, nofun⟩
    rw [turn.moment.now]
    exact waits

/-- One player does something, and then the others do. -/
theorem cons (h : Fares s [q] s' [q']) (k : Fares s' ps s'' ps'') :
    Fares s (q :: ps) s'' (q' :: ps'') where
  crashed i hi := hasCrashed_cons.2 ((hasCrashed_cons.1 hi).imp (h.crashed i) (k.crashed i))
  sound i hi := isSound_cons.2 ((isSound_cons.1 hi).imp (h.sound i) (k.sound i))
  turn := by
    rintro _ (_ | @⟨_, _, older, fresh, left, here, others⟩)
    obtain ⟨told, lost, _, waits, turn, sound, why⟩ := h.turn _ (.cons here .nil)
    obtain ⟨told', lost', left', waits', turn', sound', why'⟩ :=
      k.turn left (by rwa [turn.moment.now])
    obtain _ | @⟨_, _, older', fresh', _, here', ⟨⟩⟩ := waits
    -- the calls of the others wait while the one does something, and its calls while they do
    have first := turn.frame [] left
    have second := turn'.frame (older' ++ fresh') []
    simp only [List.nil_append, List.append_nil] at first second
    refine ⟨told ++ told', lost ++ lost', _, .cons ?_ waits', first.trans second, ?_, ?_⟩
    · rwa [turn'.moment.now]
    · exact List.forall_mem_append.2 ⟨fun c hc => isSound_cons.2 (.inl (sound c hc)),
        fun c hc => isSound_cons.2 (.inr (sound' c hc))⟩
    · refine List.forall_mem_append.2 ⟨fun c hc => ?_, fun c hc => ?_⟩
      · exact (why c hc).imp_right fun broken => hasCrashed_cons.2 (.inl broken)
      · exact ((why' c hc).imp (turn.moment.cancelled trivial).symm.trans
          fun broken => hasCrashed_cons.2 (.inr broken))

end Fares

end SongSheet.Playback
