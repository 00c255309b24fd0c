import JadeEditor.Proofs.Mode.Consistency

/-!
# Which modes are refused

A mode is refused if its id is taken or one of its extensions is listed with an owner, and
the owner of an extension is the mode registered last among those that have it. An owner with
an empty id counts as none, so an extension it has may be claimed again though it is listed.
-/

namespace JadeEditor

set_option autoImplicit false

namespace Registry

variable {r : Registry} {m : Mode}

/-! ## What is taken -/

theorem get?_eq_none_iff (r : Registry) (id : Text) :
    r.get? id = none ↔ ¬ ∃ n ∈ r.modes, n.id = id := by
  rw [get?, List.find?_eq_none]
  simp

theorem mem_extensions_iff {e : Text} : e ∈ r.extensions ↔ ∃ id, r.owner? e = some id := by
  rw [extensions, List.mem_map]
  constructor
  · rintro ⟨o, ho, rfl⟩
    have hfound : (r.owners.find? fun p => p.1 = o.1).isSome :=
      List.find?_isSome.mpr ⟨o, ho, decide_eq_true rfl⟩
    obtain ⟨p, hp⟩ := Option.isSome_iff_exists.mp hfound
    exact ⟨p.2, by rw [owner?, hp]; rfl⟩
  · rintro ⟨id, howner⟩
    obtain ⟨o, ho, -⟩ := Option.map_eq_some_iff.mp howner
    exact ⟨o, List.mem_of_find?_eq_some ho, by simpa using List.find?_some ho⟩

theorem claimant?_eq_none_iff {e : Text} :
    r.claimant? e = none ↔ ¬ (e ∈ r.extensions ∧ r.owner? e ≠ some []) := by
  rw [mem_extensions_iff, claimant?]
  cases r.owner? e with
  | none => simp
  | some id => simp [Option.filter]

theorem refused_iff (r : Registry) (m : Mode) :
    (∃ c s, enrol m r = .error c s) ↔ (∃ n ∈ r.modes, n.id = m.id)
      ∨ ∃ e ∈ m.extensions.map normalExtension, e ∈ r.extensions ∧ r.owner? e ≠ some [] := by
  have hfree : r.conflict? m = none ↔ ¬ ((∃ n ∈ r.modes, n.id = m.id)
      ∨ ∃ e ∈ m.extensions.map normalExtension, e ∈ r.extensions ∧ r.owner? e ≠ some []) := by
    rw [conflict?_eq_none_iff, get?_eq_none_iff, not_or]
    simp only [claimant?_eq_none_iff, not_exists, not_and]
  cases h : r.conflict? m with
  | none =>
    rw [enrol_of_free h]
    simpa using hfree.mp h
  | some c =>
    have hnot : ¬ r.conflict? m = none := by
      rw [h]
      exact Option.some_ne_none c
    rw [enrol_of_conflict h]
    exact ⟨fun _ => not_not.mp (fun hc => hnot (hfree.mpr hc)), fun _ => ⟨c, r, rfl⟩⟩

/-! ## Who owns an extension -/

/-- The registered modes that have an extension, in the order of registration. -/
def having (r : Registry) (e : Text) : List Mode :=
  r.modes.filter fun n => e ∈ n.extensions.map normalExtension

theorem having_extended (r : Registry) (m : Mode) (e : Text) : (r.extended m).having e
    = if e ∈ m.extensions.map normalExtension then r.having e ++ [m] else r.having e := by
  rw [having, extended, List.filter_append, ← having]
  by_cases he : e ∈ m.extensions.map normalExtension
  · rw [if_pos he, List.filter_cons_of_pos (by exact decide_eq_true he), List.filter_nil]
  · rw [if_neg he, List.filter_cons_of_neg (by simpa using he), List.filter_nil, List.append_nil]

/-- Every extension that some mode has is owned by the last of these. -/
def OwnedByLast (r : Registry) : Prop := ∀ e, r.owner? e = (r.having e).getLast?.map Mode.id

theorem OwnedByLast.extended (h : r.OwnedByLast) (m : Mode) : (r.extended m).OwnedByLast := by
  intro e
  rw [owner?_extended, having_extended]
  split
  · rw [List.getLast?_concat]
    rfl
  · exact h e

theorem OwnedByLast.attempts (h : r.OwnedByLast) (calls : List Mode) :
    (calls.foldl attempt r).OwnedByLast := by
  induction calls generalizing r with
  | nil => exact h
  | cons m calls ih =>
    apply ih
    rcases attempt_cases r m with hsame | ⟨-, hnext⟩
    · rw [hsame]
      exact h
    · rw [hnext]
      exact h.extended m

theorem ownedByLast_after (calls : List Mode) : (after calls).OwnedByLast :=
  OwnedByLast.attempts (fun _ => rfl) calls

/-- A mode is refused if a registered one has its id, or if one of its extensions is listed and
the last registered mode that has that extension has an id that is not empty. As long as no mode
with an empty id is registered, that an extension is listed is enough. -/
theorem register_refuses_iff (calls : List Mode) (m : Mode) :
    let r := after calls
    let wanted := m.extensions.map normalExtension
    ((∃ c s, enrol m r = .error c s ∧ c.toFault.code = .duplicateMode)
        ↔ (∃ n ∈ r.modes, n.id = m.id) ∨ ∃ e ∈ wanted, e ∈ r.extensions ∧ r.owner? e ≠ some [])
      ∧ (∀ e, r.owner? e = (r.having e).getLast?.map Mode.id)
      ∧ ((∀ n ∈ r.modes, n.id ≠ []) →
        ((∃ c s, enrol m r = .error c s ∧ c.toFault.code = .duplicateMode)
          ↔ (∃ n ∈ r.modes, n.id = m.id) ∨ ∃ e ∈ wanted, e ∈ r.extensions)) := by
  intro r wanted
  have howned : r.OwnedByLast := ownedByLast_after calls
  have hcode : (∃ c s, enrol m r = .error c s ∧ c.toFault.code = .duplicateMode)
      ↔ ∃ c s, enrol m r = .error c s :=
    ⟨fun ⟨c, s, h, _⟩ => ⟨c, s, h⟩, fun ⟨c, s, h⟩ => ⟨c, s, h, rfl⟩⟩
  rw [hcode, refused_iff]
  refine ⟨Iff.rfl, howned, fun hnamed => ?_⟩
  have howner : ∀ e, r.owner? e ≠ some [] := by
    intro e hempty
    rw [howned] at hempty
    obtain ⟨n, hn, hid⟩ := Option.map_eq_some_iff.mp hempty
    exact hnamed n (List.mem_filter.mp (List.mem_of_getLast? hn)).1 hid
  simp only [howner, ne_eq, not_false_eq_true, and_true]
  rfl

/-- The extension of a mode with an empty id is claimed by the second mode, and after that it is
refused to the third one, which spells it with a dot and a capital letter. If the second mode is
the only one, the other extension of the third is free. -/
theorem reclaimed_extension_is_taken :
    let second : Mode := ⟨utf16 "b", [], [utf16 "x"]⟩
    let calls : List Mode := [⟨[], [], [utf16 "x"]⟩, second]
    ((after calls).owner? (utf16 "x") = some (utf16 "b"))
      ∧ (∃ c s, enrol ⟨utf16 "c", [], [utf16 "y", utf16 ".X"]⟩ (after calls) = .error c s
        ∧ c.toFault.code = .duplicateMode)
      ∧ ¬ ∃ c s, enrol ⟨utf16 "c", [], [utf16 "y"]⟩ (after [second]) = .error c s
        ∧ c.toFault.code = .duplicateMode := by
  intro second calls
  obtain ⟨hrefused, howner, -⟩ :=
    register_refuses_iff calls ⟨utf16 "c", [], [utf16 "y", utf16 ".X"]⟩
  have hsecond : (after calls).owner? (utf16 "x") = some (utf16 "b") :=
    (howner (utf16 "x")).trans (by decide +kernel)
  obtain ⟨-, -, hlisted⟩ := register_refuses_iff [second] ⟨utf16 "c", [], [utf16 "y"]⟩
  refine ⟨hsecond, hrefused.mpr (.inr ⟨utf16 "x", by decide +kernel, by decide +kernel, ?_⟩), ?_⟩
  · rw [hsecond]
    decide
  · rw [hlisted (by decide +kernel)]
    decide +kernel

/-- An extension that is listed is not taken if its owner has an empty id. -/
theorem extension_of_empty_id_is_free :
    let r := after [⟨[], [], [utf16 "x"]⟩]
    let m : Mode := ⟨utf16 "b", [], [utf16 ".X"]⟩
    ¬ ((∃ c s, enrol m r = .error c s ∧ c.toFault.code = .duplicateMode)
      ↔ (∃ n ∈ r.modes, n.id = m.id)
        ∨ ∃ e ∈ m.extensions.map normalExtension, e ∈ r.extensions) := by
  intro r m hiff
  have hfree : enrol m r = .ok () (r.extended m) := enrol_of_free (by decide +kernel)
  have hlisted : ∃ e ∈ m.extensions.map normalExtension, e ∈ r.extensions := by decide +kernel
  obtain ⟨c, s, hrefused, -⟩ := hiff.mpr (.inr hlisted)
  rw [hfree] at hrefused
  cases hrefused

end Registry

end JadeEditor
