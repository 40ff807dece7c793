/-
SongSheet/Proofs/Sheet/Playable.lean

What every sheet of a text is made of.

The bounds of a note are set in different places: numbers are checked where a line is read
(`Command.isSound_of_ofLine`), pans and volumes are clamped where they are set, and the length
of a note is a quotient that is rounded once (`NoteValue.seconds_spec`).  Each command keeps
them (`Builder.Does.isSound`), wherever it adds notes and however often it repeats them, and
so they hold of every note of a sheet that is read from a text.
-/
import SongSheet.Proofs.Binary.Rounding
import SongSheet.Proofs.Playback.Invariant
import SongSheet.Proofs.Sheet.Lines
import SongSheet.Proofs.Sheet.Step

namespace SongSheet

open Clock Command

/-! ### Pitches -/

/-- A rest, or the frequency of a pitch from B0 to C8. -/
def Single.IsPitch (x : Single) : Prop :=
  x = Binary.zero false ∨ ∃ n, 23 ≤ n ∧ n ≤ 108 ∧ x = Pitch.tuned n

namespace Pitch

theorem natural_le {c : Char} {n : Nat} (h : natural c = some n) : n ≤ 11 := by
  unfold natural at h
  split at h <;> cases h <;> decide

theorem octave_mem {cs : List Char} {o : Nat} (h : octave cs = some o) : 1 ≤ o ∧ o ≤ 7 := by
  unfold octave at h
  split at h
  case h_1 c =>
    split at h
    case isTrue range =>
      cases h
      have low : '1'.toNat ≤ c.toNat := range.1
      have high : c.toNat ≤ '7'.toNat := range.2
      rw [show '1'.toNat = 49 from rfl] at low
      rw [show '7'.toNat = 55 from rfl] at high
      omega
    case isFalse => cases h
  case h_2 => cases h

theorem accidental_mem (cs : List Char) :
    -1 ≤ (splitAccidental cs).1 ∧ (splitAccidental cs).1 ≤ 1 := by
  unfold splitAccidental
  split <;> simp

/-- The pitches that have names. -/
theorem number_mem {name : List Char} {n : Int} (h : number name = some n) : 23 ≤ n ∧ n ≤ 108 := by
  cases name with
  | nil => cases h
  | cons c cs =>
      obtain ⟨base, hbase, h⟩ := Option.bind_eq_some_iff.1 h
      have accidental := accidental_mem cs
      rcases split : splitAccidental cs with ⟨a, digits⟩
      rw [split] at h accidental
      obtain ⟨o, ho, h⟩ := Option.bind_eq_some_iff.1 h
      -- a flat C of the first octave is the lowest, a sharp B of the seventh the highest
      have base := natural_le hbase
      have octave := octave_mem ho
      cases h
      omega

theorem isPitch_of_frequency {name : List Char} {x : Single} (h : frequency name = some x) :
    x.IsPitch := by
  rw [frequency] at h
  split at h
  case isTrue => exact .inl (Option.some.inj h).symm
  case isFalse =>
    obtain ⟨n, hn, rfl⟩ := Option.map_eq_some_iff.1 h
    have := number_mem hn
    exact .inr ⟨n.toNat, by omega, by omega, rfl⟩

end Pitch

/-! ### Commands that are read -/

/-- What is read one after the other is read each. -/
theorem forall_mem_of_mapM {α β ε : Type} {read : α → Except ε β} {P : β → Prop}
    (sound : ∀ a b, read a = .ok b → P b) {as : List α} {bs : List β}
    (h : as.mapM read = .ok bs) : bs.length = as.length ∧ ∀ b ∈ bs, P b := by
  induction as generalizing bs with
  | nil =>
      cases h
      exact ⟨rfl, nofun⟩
  | cons a as ih =>
      rw [List.mapM_cons] at h
      obtain ⟨b, first, h⟩ := exists_of_bind h
      obtain ⟨rest, others, h⟩ := exists_of_bind h
      cases h
      obtain ⟨length, all⟩ := ih others
      exact ⟨congrArg (· + 1) length, List.forall_mem_cons.2 ⟨sound a b first, all⟩⟩

/-- A cell has pitches, and no others than those with names. -/
structure Cell.IsSound (c : Cell) : Prop where
  sounding : c.pitches ≠ []
  pitches : ∀ x ∈ c.pitches, x.IsPitch

theorem Cell.isPitch_of_readPitch {name : List Char} {x : Single}
    (h : Cell.readPitch name = .ok x) : x.IsPitch := by
  rw [readPitch] at h
  split at h
  case h_1 f found =>
    cases h
    exact Pitch.isPitch_of_frequency found
  case h_2 => cases h

theorem splitAll_ne_nil (sep : Char) (cs : List Char) : Text.splitAll sep cs ≠ [] := by
  cases cs with
  | nil => nofun
  | cons c cs =>
      rw [Text.splitAll, List.foldr_cons]
      split
      · nofun
      · split <;> nofun

theorem Cell.isSound_of_read {cs : List Char} {c : Cell} (h : Cell.read cs = .ok c) :
    c.IsSound := by
  rw [Cell.read] at h
  split at h
  case h_1 => cases h
  case h_2 names code _ =>
    obtain ⟨pitches, read, h⟩ := exists_of_bind h
    obtain ⟨length, all⟩ := forall_mem_of_mapM (fun _ _ => isPitch_of_readPitch) read
    split at h
    case h_1 =>
      cases h
      refine ⟨fun none => splitAll_ne_nil '+' names ?_, all⟩
      exact List.length_eq_zero_iff.1 (length.symm.trans (congrArg List.length none))
    case h_2 => cases h

/-- What a command can say. -/
def Command.IsSound : Command → Prop
  | .bpm n => 1 ≤ n ∧ n ≤ largestNumber
  | .pan x | .volume x => x.isFinite = true
  | .loop n => n ≤ largestNumber
  | .notes cells => ∀ c ∈ cells, c.IsSound
  | .type _ | .track _ | .endLoop => True

namespace Command

theorem eq_some_of_valueOf {α : Type} {k : Keyword} {w : List Char} {o : Option α} {v : α}
    (h : valueOf k w o = .ok v) : o = some v := by
  cases o with
  | none => cases h
  | some => exact congrArg some (Except.ok.inj h)

/-- Arguments are checked. -/
theorem isSound_of_ofKeyword {k : Keyword} {args : List (List Char)} {c : Command}
    (h : ofKeyword k args = .ok c) : c.IsSound := by
  cases k with
  | bpm =>
      obtain ⟨w, -, h⟩ := exists_of_bind h
      obtain ⟨n, value, h⟩ := exists_of_bind h
      cases h
      obtain ⟨read, positive⟩ := Option.filter_eq_some_iff.1 (eq_some_of_valueOf value)
      exact ⟨of_decide_eq_true positive, Text.readNatural_le read⟩
  | pan | volume =>
      obtain ⟨w, -, h⟩ := exists_of_bind h
      obtain ⟨x, value, h⟩ := exists_of_bind h
      cases h
      exact Binary.isFinite_of_readFinite (eq_some_of_valueOf value)
  | loop =>
      obtain ⟨w, -, h⟩ := exists_of_bind h
      obtain ⟨n, value, h⟩ := exists_of_bind h
      cases h
      exact Text.readNatural_le (eq_some_of_valueOf value)
  | notes =>
      obtain ⟨cells, read, h⟩ := exists_of_bind h
      cases h
      exact (forall_mem_of_mapM (fun _ _ => Cell.isSound_of_read) read).2
  | type =>
      obtain ⟨w, -, h⟩ := exists_of_bind h
      obtain ⟨t, -, h⟩ := exists_of_bind h
      cases h
      trivial
  | track =>
      obtain ⟨w, -, h⟩ := exists_of_bind h
      cases h
      trivial
  | endLoop =>
      cases h
      trivial

/-- What a line says is sound. -/
theorem isSound_of_ofLine {l : List Char} {c : Command} (h : ofLine l = .ok (some c)) :
    c.IsSound := by
  rw [ofLine] at h
  split at h
  case h_1 => cases h
  case h_2 cs _ =>
    rcases read : ofDirective cs with e | c'
    · rw [read] at h
      cases h
    · rw [read] at h
      cases h
      rw [ofDirective] at read
      dsimp only at read
      split at read
      case h_1 => exact isSound_of_ofKeyword read
      case h_2 => cases read
  case h_3 cs _ _ =>
    obtain ⟨cells, read, h⟩ := exists_of_bind h
    cases h
    exact (forall_mem_of_mapM (fun _ _ => Cell.isSound_of_read) read).2

end Command

/-- The commands of a text are sound. -/
theorem isSound_of_readCommands {text : List Char} {cs : List Located}
    (h : readCommands text = .ok cs) : ∀ c ∈ cs, c.command.IsSound := by
  rcases readLines_cases 1 (Text.lines text) with ⟨_, _, _, _, -, -, -, refused⟩ |
    ⟨cs', -, read, stand⟩
  · cases h.symm.trans refused
  · cases h.symm.trans read
    intro c hc
    obtain ⟨_, _, -, -, decoded⟩ := stand c hc
    exact Command.isSound_of_ofLine decoded

/-! ### Lengths -/

namespace NoteValue

theorem eighths_mem (v : NoteValue) : 2 ≤ v.eighths ∧ v.eighths ≤ 48 := by
  obtain ⟨plain, dotted⟩ := v
  cases plain <;> cases dotted <;> decide

/-- Six minutes, the longest length of a note. -/
def longest : Double := Binary.ofNat 360

/-- A number below the shortest length of a note, a little less than 3.5 nanoseconds. -/
def shortest : Double := Binary.ofQuotient false 15 (Nat.pow 2 32)

theorem units_longest : longest.units = 360 * Format.double.oneUnits := by decide +kernel

theorem units_shortest : shortest.units * Nat.pow 2 32 = 15 * Format.double.oneUnits := by
  decide +kernel

/-- Lengths are within these, at all tempos that can be set. -/
theorem seconds_spec (v : NoteValue) {bpm : Nat} (slow : 1 ≤ bpm) (fast : bpm ≤ largestNumber) :
    (v.seconds bpm).negative = false ∧ shortest.magnitude ≤ (v.seconds bpm).magnitude ∧
      (v.seconds bpm).magnitude ≤ longest.magnitude := by
  have eighths := v.eighths_mem
  have positive : 0 < 8 * bpm := by omega
  rw [seconds, if_neg (by omega)]
  -- the quotient is within the bounds, and these are doubles: rounding does not pass them
  refine ⟨rfl, Binary.le_magnitude_ofQuotient false positive (by decide +kernel) ?_,
    Binary.magnitude_ofQuotient_le false positive ?_⟩
  · have below : bpm ≤ Nat.pow 2 32 := Nat.le_trans fast (Nat.sub_le _ _)
    calc shortest.units * (8 * bpm)
        ≤ shortest.units * (8 * Nat.pow 2 32) := Nat.mul_le_mul_left _ (by omega)
      _ = 8 * (shortest.units * Nat.pow 2 32) := by ring
      _ = 120 * Format.double.oneUnits := by rw [units_shortest]; ring
      _ ≤ v.eighths * 60 * Format.double.oneUnits := Nat.mul_le_mul_right _ (by omega)
  · calc v.eighths * 60 * Format.double.oneUnits
        ≤ 360 * (8 * bpm) * Format.double.oneUnits := Nat.mul_le_mul_right _ (by omega)
      _ = longest.units * (8 * bpm) := by rw [units_longest]; ring

end NoteValue

/-- The nanoseconds of a length within these bounds, whatever the unit is. -/
theorem roundHalfEven_second {units least one : Nat} (some : 0 < one)
    (shortest : least * Nat.pow 2 32 = 15 * one) (low : least ≤ units)
    (high : units ≤ 360 * one) : 0 < units ∧ 3 ≤ roundHalfEven (units * second) one ∧
      roundHalfEven (units * second) one ≤ 360 * second := by
  refine ⟨?_, le_roundHalfEven some ?_, roundHalfEven_le some ?_⟩
  · refine Nat.lt_of_lt_of_le (Nat.pos_of_ne_zero fun none => ?_) low
    rw [none] at shortest
    omega
  · refine Nat.le_trans ?_ (Nat.mul_le_mul_right second low)
    refine Nat.le_of_mul_le_mul_right ?_ (Format.powTwo_pos 32)
    calc 3 * one * Nat.pow 2 32
        = Nat.pow 2 32 * 3 * one := by ring
      _ ≤ second * 15 * one := Nat.mul_le_mul_right _ (by decide)
      _ = second * (15 * one) := by ring
      _ = least * second * Nat.pow 2 32 := by rw [← shortest]; ring
  · calc units * second ≤ 360 * one * second := Nat.mul_le_mul_right second high
      _ = 360 * second * one := by ring

/-- A length within these bounds is a number of seconds, and of nanoseconds. -/
theorem nanoseconds_of_within {x : Double} (positive : x.negative = false)
    (low : NoteValue.shortest.magnitude ≤ x.magnitude)
    (high : x.magnitude ≤ NoteValue.longest.magnitude) :
    x.isFinite = true ∧ 0 < x.value ∧ x.value ≤ 360 ∧
      ∃ ns, Clock.nanoseconds x = some ns ∧ 3 ≤ ns ∧ ns ≤ 360 * second := by
  have finite : x.isFinite = true := by
    have limit : NoteValue.longest.magnitude < Format.double.infinity := by decide +kernel
    exact decide_eq_true (Nat.lt_of_le_of_lt high limit)
  have most := Binary.units_mono high
  rw [NoteValue.units_longest] at most
  obtain ⟨some, three, minutes⟩ := roundHalfEven_second Format.double.oneUnits_pos
    NoteValue.units_shortest (Binary.units_mono low) most
  have value : x.value = x.units / Format.double.oneUnits := by
    rw [Binary.value, Binary.signedUnits, positive, if_neg Bool.false_ne_true, Int.cast_natCast]
  refine ⟨finite, ?_, ?_, _, ?_, three, minutes⟩
  · rw [value]
    exact div_pos (Nat.cast_pos.2 some) (Binary.cast_oneUnits_pos _)
  · rw [value, div_le_iff₀ (Binary.cast_oneUnits_pos _)]
    exact_mod_cast most
  · have below : roundHalfEven (x.units * second) Format.double.oneUnits < Nat.pow 2 64 * second :=
      Nat.lt_of_le_of_lt minutes (by decide)
    simp only [Clock.nanoseconds, finite, positive, Bool.not_true, Bool.false_and, Bool.or_false,
      Bool.false_eq_true, if_false, if_pos below]

/-! ### Notes -/

/-- A note that can be played. -/
structure Note.IsPlayable (n : Note) : Prop where
  sounding : n.pitches ≠ []
  pitches : ∀ x ∈ n.pitches, x.IsPitch
  pan : n.pan.isFinite = true ∧ -1 ≤ n.pan.value ∧ n.pan.value ≤ 1
  volume : n.volume.isFinite = true ∧ 0 ≤ n.volume.value ∧ n.volume.value ≤ 1
  duration : n.duration.isFinite = true ∧ 0 < n.duration.value ∧ n.duration.value ≤ 360
  length : ∃ ns, Clock.nanoseconds n.duration = some ns ∧ 3 ≤ ns ∧ ns ≤ 360 * second

/-- Settings that make notes that can be played. -/
structure Settings.IsSound (s : Settings) : Prop where
  bpm : 1 ≤ s.bpm ∧ s.bpm ≤ largestNumber
  pan : s.pan.isFinite = true ∧ -1 ≤ s.pan.value ∧ s.pan.value ≤ 1
  volume : s.volume.isFinite = true ∧ 0 ≤ s.volume.value ∧ s.volume.value ≤ 1

namespace Settings

variable {s : Settings}

theorem value_zero : (Binary.zero false : Single).value = 0 := by
  simp [Binary.value, Binary.signedUnits, Binary.zero, Binary.units]

theorem value_one : (Binary.ofNat 1 : Single).value = 1 := by
  have units : (Binary.ofNat 1 : Single).signedUnits = Format.single.oneUnits := by decide +kernel
  rw [Binary.value, units]
  exact div_self (Binary.cast_oneUnits_pos _).ne'

theorem value_minus_one : (Binary.ofQuotient true 1 1 : Single).value = -1 := by
  have units : (Binary.ofQuotient true 1 1 : Single).signedUnits = -Format.single.oneUnits := by
    decide +kernel
  rw [Binary.value, units]
  push_cast
  rw [neg_div]
  exact congrArg _ (div_self (Binary.cast_oneUnits_pos _).ne')

theorem clampPan_spec {x : Single} (finite : x.isFinite = true) :
    (clampPan x).isFinite = true ∧ -1 ≤ (clampPan x).value ∧ (clampPan x).value ≤ 1 := by
  rw [← value_minus_one, ← value_one]
  exact Binary.clamp_spec finite (by decide +kernel) (by decide +kernel) (by decide +kernel)

theorem clampVolume_spec {x : Single} (finite : x.isFinite = true) :
    (clampVolume x).isFinite = true ∧ 0 ≤ (clampVolume x).value ∧ (clampVolume x).value ≤ 1 := by
  rw [← value_zero, ← value_one]
  exact Binary.clamp_spec finite (by decide +kernel) (by decide +kernel) (by decide +kernel)

theorem isSound_initial : initial.IsSound where
  bpm := by decide
  pan := by
    rw [show initial.pan = Binary.zero false from rfl, value_zero]
    exact ⟨by decide +kernel, by norm_num, by norm_num⟩
  volume := by
    rw [show initial.volume = Binary.ofNat 1 from rfl, value_one]
    exact ⟨by decide +kernel, by norm_num, by norm_num⟩

/-- A sound command changes sound settings to sound ones. -/
theorem IsSound.after (h : s.IsSound) {c : Command} (sound : c.IsSound) : (s.after c).IsSound := by
  cases c with
  | bpm => exact ⟨sound, h.pan, h.volume⟩
  | pan => exact ⟨h.bpm, clampPan_spec sound, h.volume⟩
  | volume => exact ⟨h.bpm, h.pan, clampVolume_spec sound⟩
  | type => exact ⟨h.bpm, h.pan, h.volume⟩
  | track | loop | endLoop | notes => exact h

/-- The note of a sound cell can be played. -/
theorem IsSound.note (h : s.IsSound) {c : Cell} (sound : c.IsSound) : (s.note c).IsPlayable := by
  obtain ⟨positive, low, high⟩ := c.value.seconds_spec h.bpm.1 h.bpm.2
  obtain ⟨finite, some, most, length⟩ := nanoseconds_of_within positive low high
  exact ⟨sound.sounding, sound.pitches, h.pan, h.volume, ⟨finite, some, most⟩, length⟩

end Settings

/-! ### Sheets -/

namespace Builder

variable {b b' : Builder}

/-- Sound settings, and notes that can be played. -/
structure IsSound (b : Builder) : Prop where
  settings : b.settings.IsSound
  notes : ∀ store ∈ b.stores, ∀ n ∈ store, n.IsPlayable

theorem mem_repeated {count : Nat} {notes : List Note} {n : Note}
    (h : n ∈ repeated count notes) : n ∈ notes := by
  rw [repeated_eq] at h
  obtain ⟨part, hp, hn⟩ := List.mem_flatten.1 h
  rwa [List.eq_of_mem_replicate hp] at hn

/-- Notes that can be played may be added to those that can. -/
theorem Adds.isSound {notes : List Note} (h : b.Adds notes b') (sound : b.IsSound)
    (all : ∀ n ∈ notes, n.IsPlayable) : b'.IsSound := by
  obtain ⟨ns, target, -, stored⟩ := h.target
  refine ⟨by rw [h.settings]; exact sound.settings, fun store hs n hn => ?_⟩
  rcases stored store hs with old | rfl
  · exact sound.notes store old n hn
  · rcases List.mem_append.1 hn with hn | hn
    · exact sound.notes ns (mem_stores_of_target target) n hn
    · exact all n hn

/-- A sound command keeps a builder sound. -/
theorem Does.isSound {c : Located} (h : b.Does c (.ok b')) (sound : b.IsSound)
    (fair : c.command.IsSound) : b'.IsSound := by
  cases h with
  | set => exact ⟨sound.settings.after fair, sound.notes⟩
  | track =>
      refine ⟨sound.settings, fun store hs n hn => ?_⟩
      rcases List.mem_append.1 hs with loop | track
      · exact sound.notes store (List.mem_append_left _ loop) n hn
      · obtain ⟨t, ht, rfl⟩ := List.mem_map.1 track
        rcases (mem_declare _ _).2 t ht with there | none
        · exact sound.notes _ (List.mem_append_right _ (List.mem_map_of_mem there)) n hn
        · rw [none] at hn
          cases hn
  | notes adds =>
      refine adds.isSound sound fun n hn => ?_
      obtain ⟨cell, hc, rfl⟩ := List.mem_map.1 hn
      exact sound.settings.note (fair cell hc)
  | loop =>
      refine ⟨sound.settings, fun store hs n hn => ?_⟩
      rcases List.mem_cons.1 hs with rfl | hs
      · cases hn
      · exact sound.notes store hs n hn
  | @close line l ls ns b' loops _ _ adds =>
      have outer : ({ b with loops := ls } : Builder).IsSound :=
        ⟨sound.settings, fun store hs => sound.notes store (mem_stores_of_cons loops hs)⟩
      -- the body was stored itself, and repeating it makes no new notes
      have inner : l.notes ∈ b.stores := by
        rw [stores, loops]
        exact List.mem_cons_self
      exact adds.isSound outer fun n hn => sound.notes _ inner n (mem_repeated hn)

theorem isSound_initial : initial.IsSound := by
  refine ⟨Settings.isSound_initial, fun store hs n hn => ?_⟩
  obtain rfl : store = [] := by simpa [stores, initial, Sheet.initial, Track.empty] using hs
  cases hn

/-- Sound commands lead to a sound builder. -/
theorem isSound_of_run {cs : List Located} (sound : ∀ c ∈ cs, c.command.IsSound)
    (run : initial.run cs = .ok b) : b.IsSound := by
  refine (of_run (P := fun cs b => (∀ c ∈ cs, c.command.IsSound) → b.IsSound)
    (fun _ => isSound_initial) ?_ run).2 sound
  intro cs c b b' _ before does sound
  obtain ⟨all, last⟩ := List.forall_mem_append.1 sound
  exact does.isSound (before all) (last c (List.mem_singleton_self c))

end Builder

theorem isPlayable_of_ofText {text : List Char} {sheet : Sheet}
    (h : Sheet.ofText text = .ok sheet) : ∀ t ∈ sheet.tracks, ∀ n ∈ t.notes, n.IsPlayable := by
  obtain ⟨cs, read, h⟩ := exists_of_bind h
  obtain ⟨b, run, finished⟩ := exists_of_bind h
  have sound := Builder.isSound_of_run (isSound_of_readCommands read) run
  rw [Builder.finish] at finished
  split at finished
  case h_1 => cases finished
  case h_2 =>
    cases finished
    exact fun t ht => sound.notes _ (List.mem_append_right _ (List.mem_map_of_mem ht))

/-! ### Playback -/

namespace Playback

variable {σ : Type}

/-- The notes that are left to a member are notes of its track. -/
theorem memberInvariant_notes (setup : Setup σ) :
    MemberInvariant setup fun t _ m => ∀ n ∈ m.player.notes, n ∈ t.notes where
  initial _ _ := fun _ hn => hn
  step taken h := by
    cases taken with
    | stop | tooLate | noLength | refused | beyond => exact nofun
    | advance notes => exact fun n hn => h n (notes ▸ List.mem_cons_of_mem _ hn)
    | _ => exact h
  sound sounds h := by
    obtain ⟨endings, older, fresh, -, -, -, rfl⟩ := sounds
    exact h
  frame _ h := h

end Playback

open Playback

/-- Every sheet that is read can be played.  Each note of it has a pitch, and no others than
rests and pitches with names; its pan is from -1 to 1 and its volume from 0 to 1, and both are
numbers; its length is a number, positive and at most 360 seconds, and makes between 3 and
360,000,000,000 nanoseconds.  So in a playback of it, in whatever order the tracks act and
whatever the renderer does, no track comes to a note whose length is no length of time. -/
theorem parsed_is_playable {text : List Char} {sheet : Sheet}
    (h : Sheet.ofText text = .ok sheet) :
    (∀ t ∈ sheet.tracks, ∀ n ∈ t.notes, n.IsPlayable) ∧
    ∀ (σ : Type) (setup : Setup σ) (c : Ensemble σ),
      Ensemble.Reached setup sheet Ensemble.anyone c →
        ∀ m ∈ c.members, ∀ n ∈ m.player.notes, ∃ ns, Clock.nanoseconds n.duration = some ns := by
  have playable := isPlayable_of_ofText h
  refine ⟨playable, fun σ setup c reached m hm n hn => ?_⟩
  obtain ⟨i, found⟩ := List.mem_iff_getElem?.1 hm
  have bound : i < sheet.tracks.length := by
    rw [← Ensemble.length_of_reached reached]
    exact (List.getElem?_eq_some_iff.1 found).1
  have track := List.getElem?_eq_getElem bound
  obtain ⟨m', found', -, notes⟩ := (memberInvariant_notes setup).member reached track
  obtain rfl : m = m' := Option.some.inj (found.symm.trans found')
  obtain ⟨ns, length, -⟩ := (playable _ (List.getElem_mem bound) n (notes n hn)).length
  exact ⟨ns, length⟩

/-- At the highest tempo, with a pan and a volume out of range: the shortest note takes three
nanoseconds, and the longest 84. -/
theorem parsed_is_playable_presto :
    ∃ sheet, Sheet.ofText "#BPM 4294967295\n#PAN -7e9\n#VOLUME 1e-60\nC#1+-:s B#7:dw".toList =
        .ok sheet ∧
      (∀ t ∈ sheet.tracks, ∀ n ∈ t.notes, n.IsPlayable) ∧
      sheet.tracks.map (fun t => t.notes.map fun n => Clock.nanoseconds n.duration) =
        [[some 3, some 84]] := by
  rcases read : Sheet.ofText "#BPM 4294967295\n#PAN -7e9\n#VOLUME 1e-60\nC#1+-:s B#7:dw".toList
    with e | sheet
  · have works : (Sheet.ofText
        "#BPM 4294967295\n#PAN -7e9\n#VOLUME 1e-60\nC#1+-:s B#7:dw".toList).isOk = true := by
      decide +kernel
    rw [read] at works
    cases works
  · have lengths : (Sheet.ofText
        "#BPM 4294967295\n#PAN -7e9\n#VOLUME 1e-60\nC#1+-:s B#7:dw".toList).toOption.map
          (fun sheet => sheet.tracks.map fun t =>
            t.notes.map fun n => Clock.nanoseconds n.duration) =
        some [[some 3, some 84]] := by
      decide +kernel
    rw [read] at lengths
    exact ⟨sheet, rfl, (parsed_is_playable read).1, Option.some.inj lengths⟩

end SongSheet
