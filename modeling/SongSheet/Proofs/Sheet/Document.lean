/-
SongSheet/Proofs/Sheet/Document.lean

The document of a sheet tells the sheet.

The text of a document tells the document (`Yaml.Node.IsClean.eq_of_render_eq`), a document
tells the scalars in it by their places, and each of these its value: a name is read from its
scalar whatever characters it has (`Yaml.Scalar.render_injective`), a number with its sign,
the sign of a zero included (`Layout.render_injOn`), if it is finite.  A sheet that is read from
a text holds finite numbers only (`isFinite_of_ofText`).
-/
import SongSheet.CommandLine
import SongSheet.Proofs.Binary.Printing
import SongSheet.Proofs.Sheet.Playable
import SongSheet.Proofs.Yaml.Scalar

namespace SongSheet

open Yaml

/-! ### Scalars -/

/-- A printed number looks like nothing but a scalar. -/
theorem isClean_render {f : Format} {l : Layout} {x : Binary f} (plain : l.IsPlain)
    (finite : x.isFinite = true) : (Node.scalar (l.render x)).IsClean := by
  have symbols := Layout.isSymbol_of_mem_render plain finite
  generalize l.render x = cs at *
  have no {c : Char} (other : ¬ Numeral.IsSymbol c) : c ∉ cs := fun mem => other (symbols c mem)
  have colon : ':' ∉ cs := no (by decide)
  have space : ' ' ∉ cs := no (by decide)
  have bracket : '[' ∉ cs := no (by decide)
  have brace : '\x7b' ∉ cs := no (by decide)
  have noKey : ¬ startsWithKey cs = true := by
    intro key
    obtain ⟨front, behind, rfl, -⟩ := exists_eq_of_startsWithKey key
    simp at colon
  refine .scalar ?_ (no (by decide))
  unfold Kind.ofLine
  rw [if_neg noKey]
  split
  · simp at space
  · simp at bracket
  · simp at brace
  · rfl

theorem isClean_name (t : Timbre) : (Node.scalar t.name.toList).IsClean := by
  cases t <;> exact .scalar (by decide) (by decide)

theorem Timbre.name_injective : Function.Injective Timbre.name := by
  intro t u
  cases t <;> cases u <;> decide

theorem isPlain_documentSingle : Layout.documentSingle.IsPlain := .inr rfl

theorem isPlain_documentDouble : Layout.documentDouble.IsPlain := .inr rfl

/-! ### Notes -/

namespace Note

variable {n m : Note}

/-- All numbers of a note are finite. -/
structure IsFinite (n : Note) : Prop where
  pitches : ∀ x ∈ n.pitches, x.isFinite = true
  duration : n.duration.isFinite = true
  pan : n.pan.isFinite = true
  volume : n.volume.isFinite = true

theorem IsFinite.isClean (h : n.IsFinite) : n.document.IsClean := by
  refine .mapping ?_ ?_
  · simp [Node.IsKey]
  · have single {x : Single} (finite : x.isFinite = true) :=
      isClean_render isPlain_documentSingle finite
    have pitches := Node.IsClean.list_map fun p hp => single (h.pitches p hp)
    have duration := isClean_render isPlain_documentDouble h.duration
    simp only [List.forall_mem_cons]
    exact ⟨pitches, duration, isClean_name n.timbre, single h.pan, single h.volume, nofun⟩

/-- The document of a note tells the note. -/
theorem IsFinite.eq_of_document_eq (h : n.IsFinite) (h' : m.IsFinite)
    (eq : n.document = m.document) : n = m := by
  simp only [document, Node.mapping.injEq, List.cons.injEq, Prod.mk.injEq, Node.list.injEq,
    Node.scalar.injEq, true_and, and_true] at eq
  obtain ⟨pitches, duration, timbre, pan, volume⟩ := eq
  have pitches : n.pitches = m.pitches := by
    refine map_injOn ?_ pitches
    intro x hx y hy same
    exact Layout.render_injOn isPlain_documentSingle (h.pitches x hx) (h'.pitches y hy)
      (Node.scalar.inj same)
  have duration := Layout.render_injOn isPlain_documentDouble h.duration h'.duration duration
  have timbre := Timbre.name_injective (String.toList_injective timbre)
  have pan := Layout.render_injOn isPlain_documentSingle h.pan h'.pan pan
  have volume := Layout.render_injOn isPlain_documentSingle h.volume h'.volume volume
  cases n
  cases m
  simp_all

end Note

/-! ### Tracks and sheets -/

namespace Track

variable {t u : Track}

theorem isClean_document (h : ∀ n ∈ t.notes, n.IsFinite) : t.document.IsClean := by
  have name : (Node.scalar (Scalar.render t.name.toList)).IsClean :=
    .scalar (Scalar.kind_render _) (Scalar.not_mem_render _)
  have notes := Node.IsClean.list_map fun n hn => (h n hn).isClean
  refine .mapping ?_ ?_
  · simp [Node.IsKey]
  · simp only [List.forall_mem_cons]
    exact ⟨name, notes, nofun⟩

/-- The document of a track tells the track. -/
theorem eq_of_document_eq (h : ∀ n ∈ t.notes, n.IsFinite) (h' : ∀ n ∈ u.notes, n.IsFinite)
    (eq : t.document = u.document) : t = u := by
  simp only [document, Node.mapping.injEq, List.cons.injEq, Prod.mk.injEq, Node.list.injEq,
    Node.scalar.injEq, true_and, and_true] at eq
  obtain ⟨name, notes⟩ := eq
  have name := String.toList_injective (Scalar.render_injective name)
  have notes : t.notes = u.notes :=
    map_injOn (fun n hn m hm => (h n hn).eq_of_document_eq (h' m hm)) notes
  cases t
  cases u
  simp_all

end Track

namespace Sheet

variable {s t : Sheet}

/-- All numbers of a sheet are finite. -/
def IsFinite (s : Sheet) : Prop := ∀ t ∈ s.tracks, ∀ n ∈ t.notes, n.IsFinite

theorem IsFinite.isClean (h : s.IsFinite) : s.document.IsClean := by
  have tracks := Node.IsClean.list_map fun t ht => Track.isClean_document (h t ht)
  refine .mapping ?_ ?_
  · simp [Node.IsKey]
  · simp only [List.forall_mem_cons]
    exact ⟨tracks, nofun⟩

/-- The text of a sheet tells the sheet. -/
theorem IsFinite.eq_of_toYaml_eq (h : s.IsFinite) (h' : t.IsFinite) (eq : s.toYaml = t.toYaml) :
    s = t := by
  have texts : s.document.render = t.document.render := String.ofList_injective eq
  have documents := h.isClean.eq_of_render_eq h'.isClean texts
  simp only [document, Node.mapping.injEq, List.cons.injEq, Prod.mk.injEq, Node.list.injEq,
    true_and, and_true] at documents
  have tracks : s.tracks = t.tracks :=
    map_injOn (fun t ht u hu => Track.eq_of_document_eq (h t ht) (h' u hu)) documents
  cases s
  cases t
  simp_all

end Sheet

/-! ### Sheets of texts -/

theorem Single.IsPitch.isFinite {x : Single} (h : x.IsPitch) : x.isFinite = true := by
  have tuned : ∀ n < 109, (Pitch.tuned n).isFinite = true := by decide +kernel
  rcases h with rfl | ⟨n, -, high, rfl⟩
  · decide
  · exact tuned n (by omega)

theorem isFinite_of_ofText {text : List Char} {sheet : Sheet}
    (h : Sheet.ofText text = .ok sheet) : sheet.IsFinite := by
  intro t ht n hn
  have playable := isPlayable_of_ofText h t ht n hn
  exact ⟨fun x hx => (playable.pitches x hx).isFinite, playable.duration.1, playable.pan.1,
    playable.volume.1⟩

open CommandLine

/-- Sheets that are read from texts have the same YAML text only if they are equal: the same
tracks in the same order, with the same names and the same notes in the same order, and the
numbers of the notes the same in every bit, so that `-0.0` differs from `0.0`.  So what
is printed when a text is checked tells its sheet. -/
theorem check_is_lossless {a b : List Char} {s t : Sheet} (ha : Sheet.ofText a = .ok s)
    (hb : Sheet.ofText b = .ok t) :
    (s.toYaml = t.toYaml ↔ s = t) ∧
      ∀ (files files' : Files) (i j : String), files i = .ok a → files' j = .ok b →
        ((check files i).output = (check files' j).output ↔ s = t) := by
  have texts : s.toYaml = t.toYaml ↔ s = t := by
    constructor
    · exact (isFinite_of_ofText ha).eq_of_toYaml_eq (isFinite_of_ofText hb)
    · rintro rfl
      rfl
  refine ⟨texts, ?_⟩
  intro files files' i j hi hj
  simp only [check, hi, hj, ha, hb, Ending.success]
  rw [String.append_left_inj, texts]

/-- Two sheets with one note that differ in the sign of its pan, a zero, are printed
differently. -/
theorem check_is_lossless_signed_zero :
    ∃ s t, Sheet.ofText "#PAN 0\nC4+-:q".toList = .ok s ∧
      Sheet.ofText "#PAN -0\nC4+-:q".toList = .ok t ∧ s.toYaml ≠ t.toYaml ∧
      (check (fun _ => .ok "#PAN 0\nC4+-:q".toList) "sheet").output ≠
        (check (fun _ => .ok "#PAN -0\nC4+-:q".toList) "sheet").output := by
  have works : (Sheet.ofText "#PAN 0\nC4+-:q".toList).isOk = true ∧
      (Sheet.ofText "#PAN -0\nC4+-:q".toList).isOk = true := by decide +kernel
  have differ : (Sheet.ofText "#PAN 0\nC4+-:q".toList).toOption ≠
      (Sheet.ofText "#PAN -0\nC4+-:q".toList).toOption := by decide +kernel
  rcases ha : Sheet.ofText "#PAN 0\nC4+-:q".toList with e | s
  · rw [ha] at works
    cases works.1
  rcases hb : Sheet.ofText "#PAN -0\nC4+-:q".toList with e | t
  · rw [hb] at works
    cases works.2
  have other : s ≠ t := by
    rintro rfl
    rw [ha, hb] at differ
    exact differ rfl
  obtain ⟨texts, outputs⟩ := check_is_lossless ha hb
  refine ⟨s, t, rfl, rfl, ?_, ?_⟩
  · rw [Ne, texts]
    exact other
  · rw [Ne, outputs _ _ _ _ rfl rfl]
    exact other

end SongSheet
