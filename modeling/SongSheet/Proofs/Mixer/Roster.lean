/-
SongSheet/Proofs/Mixer/Roster.lean

Who shares a bus.

A roster says of each handle which handle its bus came into being with, the owner: a session
owns its bus, a bus made for itself is its own owner, and a bus that was handed out belongs to
the session it was handed out from.  The roster knows no numbers of buses and no volumes.  A
mixer is a roster together with a bus for each owner (`Roster.mixer`), and one action keeps it
so, where a set reaches the bus of one owner (`Roster.step_mixer`).  So after a run each handle
refers to the bus of its owner, with the last volume that was set for that owner
(`bus?_run`).
-/
import Mathlib.Data.List.Nodup
import SongSheet.Mixer

namespace SongSheet.Mixer

/-! ### Owners -/

/-- The handles there are, and whose bus each of them refers to. -/
structure Roster where
  /-- How many sessions there are; each owns a bus. -/
  sessions : Nat
  /-- The owners of the buses that were handed out. -/
  owners : List Handle
  /-- All owners, in the order in which their buses came into being. -/
  created : List Handle

namespace Roster

/-- One session, and no bus handed out. -/
def initial : Roster := ⟨1, [], [.session 0]⟩

/-- The owner of the bus behind a handle. -/
def owner? (r : Roster) : Handle → Option Handle
  | .session i => if i < r.sessions then some (.session i) else none
  | .bus i => r.owners[i]?

/-- What an action adds to the roster. -/
def step (r : Roster) : Action → Roster
  | .openSession =>
      { r with sessions := r.sessions + 1, created := r.created ++ [.session r.sessions] }
  | .newBus =>
      { r with owners := r.owners ++ [.bus r.owners.length],
               created := r.created ++ [.bus r.owners.length] }
  | .share i => { r with owners := r.owners ++ (r.owner? (.session i)).toList }
  | .set _ _ => r

/-- What actions add to the roster. -/
def run (r : Roster) (actions : List Action) : Roster := actions.foldl step r

/-- The volume that an action sets for an owner, through whatever handle. -/
def volumeSet? (r : Roster) (o : Handle) : Action → Option Single
  | .set h x => if r.owner? h = some o then some x else none
  | _ => none

/-- The volumes that actions set for an owner, one after the other. -/
def volumesSet (r : Roster) (o : Handle) : List Action → List Single
  | [] => []
  | a :: actions => (r.volumeSet? o a).toList ++ (r.step a).volumesSet o actions

variable {r : Roster} {o h : Handle}

theorem run_append (r : Roster) (actions more : List Action) :
    r.run (actions ++ more) = (r.run actions).run more :=
  List.foldl_append

theorem volumesSet_append (r : Roster) (o : Handle) (actions more : List Action) :
    r.volumesSet o (actions ++ more) =
      r.volumesSet o actions ++ (r.run actions).volumesSet o more := by
  induction actions generalizing r with
  | nil => rfl
  | cons a actions ih =>
      rw [List.cons_append, volumesSet, volumesSet, ih, List.append_assoc]
      rfl

/-- The owners are told apart, and each of them has a handle. -/
structure IsSound (r : Roster) : Prop where
  nodup : r.created.Nodup
  session (i : Nat) : .session i ∈ r.created ↔ i < r.sessions
  bus (i : Nat) : .bus i ∈ r.created → i < r.owners.length
  owned : ∀ o ∈ r.owners, o ∈ r.created

theorem isSound_initial : initial.IsSound where
  nodup := List.nodup_singleton _
  session i := by simp [initial]
  bus i := by simp [initial]
  owned := by simp [initial]

theorem IsSound.mem_created (sound : r.IsSound) (owner : r.owner? h = some o) :
    o ∈ r.created := by
  cases h with
  | session i =>
      rw [owner?] at owner
      split at owner
      case isTrue there =>
        rw [← Option.some.inj owner]
        exact (sound.session i).2 there
      case isFalse => cases owner
  | bus i => exact sound.owned o (List.mem_of_getElem? owner)

/-- A session that is opened is a new owner. -/
theorem IsSound.fresh_session (sound : r.IsSound) : .session r.sessions ∉ r.created := by
  rw [sound.session]
  exact Nat.lt_irrefl _

/-- And so is a bus that is made. -/
theorem IsSound.fresh_bus (sound : r.IsSound) : .bus r.owners.length ∉ r.created := by
  intro there
  exact Nat.lt_irrefl _ (sound.bus _ there)

/-- What an action creates is told apart from what was there. -/
theorem IsSound.step (sound : r.IsSound) (a : Action) : (r.step a).IsSound := by
  cases a with
  | openSession =>
      refine ⟨?_, ?_, ?_, ?_⟩
      · apply sound.nodup.append (List.nodup_singleton _)
        simpa using sound.fresh_session
      · intro i
        simp only [Roster.step, List.mem_append, sound.session, List.mem_singleton,
          Handle.session.injEq]
        omega
      · intro i there
        apply sound.bus i
        simpa [Roster.step] using there
      · intro o there
        exact List.mem_append_left _ (sound.owned o there)
  | newBus =>
      refine ⟨?_, ?_, ?_, ?_⟩
      · apply sound.nodup.append (List.nodup_singleton _)
        simpa using sound.fresh_bus
      · intro i
        simp only [Roster.step, List.mem_append, sound.session, List.mem_singleton, reduceCtorEq,
          or_false]
      · intro i there
        simp only [Roster.step, List.mem_append, List.mem_singleton, Handle.bus.injEq,
          List.length_append, List.length_singleton] at there ⊢
        rcases there with there | last
        · have := sound.bus i there
          omega
        · omega
      · intro o there
        rcases List.mem_append.1 there with there | last
        · exact List.mem_append_left _ (sound.owned o there)
        · exact List.mem_append_right _ last
  | share i =>
      refine ⟨sound.nodup, sound.session, ?_, ?_⟩
      · intro j there
        have := sound.bus j there
        simp only [Roster.step, List.length_append]
        omega
      · intro o there
        rcases List.mem_append.1 there with there | shared
        · exact sound.owned o there
        · exact sound.mem_created (Option.mem_toList.1 shared)
  | set => exact sound

theorem IsSound.run (sound : r.IsSound) (actions : List Action) : (r.run actions).IsSound := by
  induction actions generalizing r with
  | nil => exact sound
  | cons a actions ih => exact ih (sound.step a)

/-! ### A bus for each owner -/

/-- The mixer of a roster and the buses of its owners. -/
def mixer (r : Roster) (bus : Handle → MasterBus) : Mixer where
  buses := r.created.map bus
  sessions := (List.range r.sessions).map fun i => r.created.idxOf (.session i)
  handles := r.owners.map r.created.idxOf

/-- A bus after volumes were set. -/
def busAfter (b : MasterBus) (volumes : List Single) : MasterBus :=
  match volumes.getLast? with
  | none => b
  | some x => .withVolume x

theorem busAfter_append (b : MasterBus) (xs ys : List Single) :
    busAfter b (xs ++ ys) = busAfter (busAfter b xs) ys := by
  simp only [busAfter, List.getLast?_append]
  cases ys.getLast? with
  | none => rfl
  | some y => rfl

theorem mixer_initial : initial.mixer (fun _ => .initial) = Mixer.initial := by
  decide

/-- The number of a bus is the place of its owner. -/
theorem busOf?_mixer (r : Roster) (bus : Handle → MasterBus) (h : Handle) :
    (r.mixer bus).busOf? h = (r.owner? h).map r.created.idxOf := by
  cases h with
  | session i =>
      simp only [busOf?, mixer, owner?, List.getElem?_map]
      split
      case isTrue there =>
        rw [List.getElem?_range there]
        rfl
      case isFalse beyond =>
        rw [List.getElem?_eq_none (by simpa using beyond)]
        rfl
  | bus i => simp only [busOf?, mixer, owner?, List.getElem?_map]

theorem bus?_mixer (sound : r.IsSound) (bus : Handle → MasterBus) (h : Handle) :
    (r.mixer bus).bus? h = (r.owner? h).map bus := by
  rw [bus?, busOf?_mixer]
  cases owner : r.owner? h with
  | none => rfl
  | some o =>
      show (r.created.map bus)[r.created.idxOf o]? = some (bus o)
      rw [List.getElem?_map, List.getElem?_idxOf (sound.mem_created owner)]
      rfl

/-- An owner keeps its place when one more is created. -/
theorem map_idxOf_append {α : Type} {l : List α} {own : α → Handle} {created : List Handle}
    (there : ∀ a ∈ l, own a ∈ created) (new : Handle) :
    l.map (fun a => (created ++ [new]).idxOf (own a)) =
      l.map (fun a => created.idxOf (own a)) := by
  apply List.map_congr_left
  intro a ha
  exact List.idxOf_append_of_mem (there a ha)

/-- A new owner takes the last place. -/
theorem idxOf_append_self {created : List Handle} {new : Handle} (fresh : new ∉ created) :
    (created ++ [new]).idxOf new = created.length := by
  rw [List.idxOf_append_of_notMem fresh, List.idxOf_cons_self, Nat.add_zero]

/-- A new bus is as it comes. -/
theorem map_append_fresh {bus : Handle → MasterBus} {new : Handle} (initial : bus new = .initial) :
    (r.created ++ [new]).map bus = r.created.map bus ++ [.initial] := by
  rw [List.map_append, List.map_singleton, initial]

/-- An action adds to the roster, and sets the bus of one owner at most. -/
theorem step_mixer (sound : r.IsSound) {bus : Handle → MasterBus}
    (fresh : ∀ o, o ∉ r.created → bus o = .initial) (a : Action) :
    (r.mixer bus).step a =
      (r.step a).mixer fun o => busAfter (bus o) (r.volumeSet? o a).toList := by
  have sessions : ∀ i ∈ List.range r.sessions, Handle.session i ∈ r.created := by
    intro i there
    exact (sound.session i).2 (List.mem_range.1 there)
  cases a with
  | openSession =>
      have new := sound.fresh_session
      have numbers : (List.range (r.sessions + 1)).map (fun i =>
            (r.created ++ [Handle.session r.sessions]).idxOf (.session i)) =
          (r.mixer bus).sessions ++ [(r.created.map bus).length] := by
        rw [List.range_succ, List.map_append, map_idxOf_append sessions, List.map_singleton,
          idxOf_append_self new, List.length_map]
        rfl
      have handles : r.owners.map (r.created ++ [Handle.session r.sessions]).idxOf =
          (r.mixer bus).handles :=
        map_idxOf_append sound.owned _
      have buses := map_append_fresh (r := r) (fresh _ new)
      show _ = Mixer.mk ((r.created ++ [Handle.session r.sessions]).map bus)
        ((List.range (r.sessions + 1)).map fun i =>
          (r.created ++ [Handle.session r.sessions]).idxOf (.session i))
        (r.owners.map (r.created ++ [Handle.session r.sessions]).idxOf)
      rw [buses, numbers, handles]
      rfl
  | newBus =>
      have new := sound.fresh_bus
      have handles : (r.owners ++ [Handle.bus r.owners.length]).map
            (r.created ++ [Handle.bus r.owners.length]).idxOf =
          (r.mixer bus).handles ++ [(r.created.map bus).length] := by
        rw [List.map_append, map_idxOf_append sound.owned, List.map_singleton,
          idxOf_append_self new, List.length_map]
        rfl
      have numbers : (List.range r.sessions).map (fun i =>
            (r.created ++ [Handle.bus r.owners.length]).idxOf (.session i)) =
          (r.mixer bus).sessions :=
        map_idxOf_append sessions _
      have buses := map_append_fresh (r := r) (fresh _ new)
      show _ = Mixer.mk ((r.created ++ [Handle.bus r.owners.length]).map bus)
        ((List.range r.sessions).map fun i =>
          (r.created ++ [Handle.bus r.owners.length]).idxOf (.session i))
        ((r.owners ++ [Handle.bus r.owners.length]).map
          (r.created ++ [Handle.bus r.owners.length]).idxOf)
      rw [buses, numbers, handles]
      rfl
  | share i =>
      have shared := busOf?_mixer r bus (.session i)
      show Mixer.mk _ _ ((r.mixer bus).handles ++ ((r.mixer bus).busOf? (.session i)).toList) =
        Mixer.mk _ _ (List.map _ (_ ++ _))
      rw [shared, List.map_append, Option.toList_map]
      rfl
  | set h x =>
      have number := busOf?_mixer r bus h
      simp only [Mixer.step, number, Roster.step, volumeSet?]
      cases owner : r.owner? h with
      | none => rfl
      | some o =>
          have there := sound.mem_created owner
          show Mixer.mk ((r.created.map bus).set (r.created.idxOf o) (.withVolume x)) _ _ =
            Mixer.mk (r.created.map _) _ _
          have changed := sound.nodup.map_update bus o (.withVolume x)
          rw [if_pos there] at changed
          rw [← changed]
          congr 2
          funext o'
          rcases eq_or_ne o' o with rfl | other
          · rw [Function.update_self, if_pos rfl]
            rfl
          · rw [Function.update_of_ne other, if_neg (by simpa using other.symm)]
            rfl

/-- Only an owner's bus is set. -/
theorem mem_created_of_mem_volumeSet? (sound : r.IsSound) {a : Action} {x : Single}
    (set : r.volumeSet? o a = some x) : o ∈ r.created := by
  cases a with
  | set h y =>
      rw [volumeSet?] at set
      split at set
      case isTrue owner => exact sound.mem_created owner
      case isFalse => cases set
  | openSession | newBus | share => cases set

/-- An owner stays one. -/
theorem mem_created_step (a : Action) (there : o ∈ r.created) : o ∈ (r.step a).created := by
  cases a with
  | openSession | newBus => exact List.mem_append_left _ there
  | share | set => exact there

/-- Actions add to the roster, and leave each owner's bus with the last volume set for it. -/
theorem run_mixer (sound : r.IsSound) {bus : Handle → MasterBus}
    (fresh : ∀ o, o ∉ r.created → bus o = .initial) (actions : List Action) :
    (r.mixer bus).run actions =
      (r.run actions).mixer fun o => busAfter (bus o) (r.volumesSet o actions) := by
  induction actions generalizing r bus with
  | nil => rfl
  | cons a actions ih =>
      have later : ∀ o, o ∉ (r.step a).created →
          busAfter (bus o) (r.volumeSet? o a).toList = .initial := by
        intro o absent
        have absent : o ∉ r.created := fun there => absent (mem_created_step a there)
        cases set : r.volumeSet? o a with
        | none => exact fresh o absent
        | some x => exact absurd (mem_created_of_mem_volumeSet? sound set) absent
      have rest := ih (sound.step a) later
      show ((r.mixer bus).step a).run actions = _
      rw [step_mixer sound fresh, rest]
      simp only [volumesSet, busAfter_append]
      rfl

end Roster

/-- A handle refers to the bus of its owner, as the volumes set for that owner leave it. -/
theorem bus?_run (actions : List Action) (h : Handle) :
    (initial.run actions).bus? h =
      ((Roster.initial.run actions).owner? h).map fun o =>
        Roster.busAfter .initial (Roster.initial.volumesSet o actions) := by
  have sound := Roster.isSound_initial
  rw [← Roster.mixer_initial, Roster.run_mixer sound (fun _ _ => rfl),
    Roster.bus?_mixer (sound.run actions)]

end SongSheet.Mixer
