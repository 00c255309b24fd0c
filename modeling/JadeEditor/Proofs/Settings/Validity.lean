import JadeEditor.Proofs.Number.Integer
import JadeEditor.Settings.Load

/-!
# Valid settings

A value is a record of settings exactly if it has no other field than the width of a level,
and that one is missing or an integer from one to sixteen. Whatever a settings file holds and
however it is read, what is loaded comes from such a record or is the default.
-/

namespace JadeEditor.Settings

set_option autoImplicit false

/-- The value is a record of settings, with the width of a level if it gives one. -/
inductive Gives : Data → Option Nat → Prop
  | nothing {fields : List (Text × Data)} : (∀ f ∈ fields, f.1 = offsetField) →
    (Data.record fields).field? offsetField = none → Gives (.record fields) none
  | width {fields : List (Text × Data)} {x : Number} {n : Nat} :
    (∀ f ∈ fields, f.1 = offsetField) →
    (Data.record fields).field? offsetField = some (.number x) → x.toInt? = some (n : Int) →
    1 ≤ n → n ≤ maxOffset → Gives (.record fields) (some n)

/-! ## Validation -/

theorem offsetProblems_eq_nil_iff {d : Data} : offsetProblems d = []
    ↔ ∃ (x : Number) (n : Nat), d = .number x ∧ x.toInt? = some (n : Int) ∧ 1 ≤ n
      ∧ n ≤ maxOffset := by
  constructor
  · intro h
    unfold offsetProblems at h
    split at h
    · cases h
    · rename_i x hx
      obtain ⟨hfirst, hbound⟩ := List.append_eq_nil_iff.mp h
      obtain ⟨hinteger, hpositive⟩ := List.append_eq_nil_iff.mp hfirst
      obtain ⟨k, hk⟩ : ∃ k, x.toInt? = some k := by
        rw [← Option.isSome_iff_exists]
        by_contra hnone
        rw [if_neg hnone] at hinteger
        cases hinteger
      have hlow : 0 < k := by
        rw [← Number.isPositive_iff hk]
        by_contra hneg
        rw [if_neg hneg] at hpositive
        cases hpositive
      have hhigh : k ≤ maxOffset := by
        rw [← Number.isAtMost_iff hk]
        by_contra hneg
        rw [if_neg hneg] at hbound
        cases hbound
      obtain ⟨n, rfl⟩ := Int.eq_ofNat_of_zero_le (Int.le_of_lt hlow)
      exact ⟨x, n, rfl, hk, Int.natCast_pos.mp hlow, Int.ofNat_le.mp hhigh⟩
    · cases h
  · rintro ⟨x, n, rfl, hk, hlow, hhigh⟩
    have hpositive := (Number.isPositive_iff hk).mpr (Int.natCast_pos.mpr hlow)
    have hbound := (Number.isAtMost_iff hk maxOffset).mpr (Int.ofNat_le.mpr hhigh)
    unfold offsetProblems
    split
    · rename_i hnan
      cases hnan
      cases hk
    · rename_i hx
      cases hx
      rw [hk, Option.isSome_some, if_pos rfl, if_pos hpositive, if_pos hbound]
      rfl
    · rename_i hother
      exact absurd rfl (hother x)

theorem fieldIssues_eq_nil_iff {fields : List (Text × Data)} : fieldIssues fields = []
    ↔ (∀ f ∈ fields, f.1 = offsetField)
      ∧ ∀ v ∈ (Data.record fields).field? offsetField, offsetProblems v = [] := by
  have hunknown : (fields.map Prod.fst).filter (· ≠ offsetField) = []
      ↔ ∀ f ∈ fields, f.1 = offsetField := by
    rw [List.filter_eq_nil_iff]
    simp
  rw [fieldIssues]
  simp only [List.append_eq_nil_iff, List.map_eq_nil_iff]
  rw [and_comm, ← hunknown]
  refine and_congr ?_ ?_
  · cases (fields.map Prod.fst).filter (· ≠ offsetField) with
    | nil => simp
    | cons name names => simp
  · cases (Data.record fields).field? offsetField with
    | none => simp
    | some v => simp

theorem validate_eq_ok_iff {d : Data} {s : Settings} : validate d = .ok s
    ↔ ∃ width, Gives d width ∧ s.indentOffset = width.getD defaultOffset := by
  constructor
  · intro h
    unfold validate at h
    split at h
    · rename_i fields
      split at h
      · rename_i hissues
        obtain ⟨hnames, hwidth⟩ := fieldIssues_eq_nil_iff.mp hissues
        cases h
        rw [offsetOf]
        cases hfield : (Data.record fields).field? offsetField with
        | none => exact ⟨none, .nothing hnames hfield, rfl⟩
        | some v =>
          obtain ⟨x, n, rfl, hk, hlow, hhigh⟩ := offsetProblems_eq_nil_iff.mp (hwidth v hfield)
          refine ⟨some n, .width hnames hfield hk hlow hhigh, ?_⟩
          simp only [hk, Option.getD_some, Int.toNat_natCast]
      · cases h
    · cases h
  · obtain ⟨offset⟩ := s
    rintro ⟨width, hgives, rfl⟩
    cases hgives with
    | @nothing fields hnames hfield =>
      have hissues : fieldIssues fields = [] := by
        rw [fieldIssues_eq_nil_iff, hfield]
        exact ⟨hnames, fun v hv => nomatch hv⟩
      simp only [validate, hissues, offsetOf, hfield]
      rfl
    | @width fields x n hnames hfield hk hlow hhigh =>
      have hissues : fieldIssues fields = [] := by
        rw [fieldIssues_eq_nil_iff, hfield]
        refine ⟨hnames, fun v hv => ?_⟩
        obtain rfl := Option.some.inj hv
        exact offsetProblems_eq_nil_iff.mpr ⟨x, n, rfl, hk, hlow, hhigh⟩
      simp only [validate, hissues, offsetOf, hfield, hk, Option.getD_some, Int.toNat_natCast]

theorem Gives.bounds {d : Data} {n : Nat} (h : Gives d (some n)) : 1 ≤ n ∧ n ≤ maxOffset := by
  cases h with | width _ _ _ hlow hhigh => exact ⟨hlow, hhigh⟩

/-- The record with just the width of a level is one of settings if the width is in range. -/
theorem gives_singleton_iff {n : Nat} (hn : n < 2 ^ 53) {width : Option Nat} :
    Gives (.record [(offsetField, .ofNat n)]) width ↔ 1 ≤ n ∧ n ≤ maxOffset ∧ width = some n := by
  have hfield : (Data.record [(offsetField, .ofNat n)]).field? offsetField
      = some (.number (.ofInt n)) := rfl
  have hvalue := Number.toInt?_ofInt hn
  constructor
  · intro h
    cases h with
    | nothing hnames hnone => cases hnone
    | width hnames hsome hk hlow hhigh =>
      cases hfield.symm.trans hsome
      obtain rfl := Int.ofNat_inj.mp (Option.some.inj (hvalue.symm.trans hk))
      exact ⟨hlow, hhigh, rfl⟩
  · rintro ⟨hlow, hhigh, rfl⟩
    exact .width (fun f hf => congrArg Prod.fst (List.mem_singleton.mp hf)) hfield hvalue hlow hhigh

/-! ## Loading -/

/-- Where settings are read from: the named file, or the one looked for by default. -/
def pathOf (fs : FileSystem) (named root : Option Text) : Text :=
  named.getD (defaultPath fs root)

/-- The settings file gives this width of a level, or none. A file that is not named need not
be there, and one without a value gives none. -/
inductive Found (reader : Reader) (fs : FileSystem) (named root : Option Text) :
    Option Nat → Prop
  | absent : named = none → fs.hasEntry (defaultPath fs root) = false →
    Found reader fs named root none
  | empty {t : Text} : fs.read (pathOf fs named root) = .ok t →
    reader t = .ok none ∨ reader t = .ok (some .null) → Found reader fs named root none
  | value {t : Text} {d : Data} {width : Option Nat} : fs.read (pathOf fs named root) = .ok t →
    reader t = .ok (some d) → Gives d width → Found reader fs named root width

/-- The settings file is in the same place in both, and the same is there. -/
def SameFile (fs fs' : FileSystem) (named root : Option Text) : Prop :=
  pathOf fs' named root = pathOf fs named root
    ∧ fs'.entry (pathOf fs named root) = fs.entry (pathOf fs named root)

section Loading

variable {reader : Reader} {fs : FileSystem} {named root : Option Text} {s : Settings}

theorem Found.bounds {n : Nat} (h : Found reader fs named root (some n)) :
    1 ≤ n ∧ n ≤ maxOffset := by
  cases h with | value _ _ hgives => exact hgives.bounds

theorem mapError_eq_ok_iff {ε ε' α : Type} {f : ε → ε'} {x : Except ε α} {a : α} :
    x.mapError f = .ok a ↔ x = .ok a := by
  cases x <;> simp [Except.mapError]

theorem ofText_eq_ok_iff {path t : Text} :
    ofText reader path t = .ok s
      ↔ (reader t = .ok none ∨ reader t = .ok (some .null)) ∧ s.indentOffset = defaultOffset
        ∨ ∃ d width, reader t = .ok (some d) ∧ Gives d width
          ∧ s.indentOffset = width.getD defaultOffset := by
  constructor
  · intro h
    unfold ofText at h
    split at h
    · cases h
    · rename_i hreader
      cases h
      exact .inl ⟨.inl hreader, rfl⟩
    · rename_i hreader
      cases h
      exact .inl ⟨.inr hreader, rfl⟩
    · rename_i d _ hreader
      obtain ⟨width, hgives, hoffset⟩ := validate_eq_ok_iff.mp (mapError_eq_ok_iff.mp h)
      exact .inr ⟨d, width, hreader, hgives, hoffset⟩
  · rintro (⟨hempty, hoffset⟩ | ⟨d, width, hreader, hgives, hoffset⟩)
    · have hs : s = default := congrArg Settings.mk hoffset
      unfold ofText
      rw [hs]
      obtain hreader | hreader := hempty
      · rw [hreader]
      · rw [hreader]
    · have hvalid : validate d = .ok s := validate_eq_ok_iff.mpr ⟨width, hgives, hoffset⟩
      unfold ofText
      rw [hreader]
      -- A record is not null, which `ofText` takes for an empty file.
      cases hgives with
      | nothing _ _ => exact mapError_eq_ok_iff.mpr hvalid
      | width _ _ _ _ _ => exact mapError_eq_ok_iff.mpr hvalid

theorem ofFile_eq_ok_iff {path : Text} : ofFile reader fs path = .ok s
    ↔ ∃ t, fs.read path = .ok t ∧ ofText reader path t = .ok s := by
  rw [ofFile]
  cases fs.read path with
  | error problem => simp
  | ok t => simp

theorem hasEntry_of_read {path t : Text} (h : fs.read path = .ok t) :
    fs.hasEntry path = true := by
  rw [FileSystem.read] at h
  rw [FileSystem.hasEntry]
  cases hentry : fs.entry path with
  | file bytes => rfl
  | closed found problem =>
    rw [hentry] at h
    cases h

theorem found_iff :
    (∃ width, Found reader fs named root width ∧ s.indentOffset = width.getD defaultOffset)
      ↔ named = none ∧ fs.hasEntry (defaultPath fs root) = false ∧ s.indentOffset = defaultOffset
        ∨ ofFile reader fs (pathOf fs named root) = .ok s := by
  rw [ofFile_eq_ok_iff]
  simp only [ofText_eq_ok_iff]
  constructor
  · rintro ⟨width, hfound, hoffset⟩
    cases hfound with
    | absent hnamed hentry => exact .inl ⟨hnamed, hentry, hoffset⟩
    | empty hread hempty => exact .inr ⟨_, hread, .inl ⟨hempty, hoffset⟩⟩
    | value hread hreader hgives => exact .inr ⟨_, hread, .inr ⟨_, _, hreader, hgives, hoffset⟩⟩
  · rintro (⟨hnamed, hentry, hoffset⟩ | ⟨t, hread, hfile⟩)
    · exact ⟨none, .absent hnamed hentry, hoffset⟩
    · obtain ⟨hempty, hoffset⟩ | ⟨d, width, hreader, hgives, hoffset⟩ := hfile
      · exact ⟨none, .empty hread hempty, hoffset⟩
      · exact ⟨width, .value hread hreader hgives, hoffset⟩

/-- The settings are those of the file, with the default for what it does not give. -/
theorem loadWith_eq_ok_iff : loadWith reader fs named root = .ok s
      ↔ ∃ width, Found reader fs named root width ∧ s.indentOffset = width.getD defaultOffset := by
  rw [found_iff]
  unfold loadWith
  -- What can be read is there, so without an entry the file does not come in.
  have hentry {path : Text} (h : ofFile reader fs path = .ok s) : fs.hasEntry path = true := by
    obtain ⟨t, hread, -⟩ := ofFile_eq_ok_iff.mp h
    exact hasEntry_of_read hread
  have hdefault : Except.ok default = (.ok s : Except LoadProblem Settings)
      ↔ s.indentOffset = defaultOffset := by
    rw [Except.ok.injEq]
    exact ⟨fun h => h ▸ rfl, fun h => (congrArg Settings.mk h).symm⟩
  cases named with
  | some path =>
    simp only [reduceCtorEq, false_and, false_or, pathOf, Option.getD_some]
    cases hpath : fs.hasEntry path with
    | true => rw [if_pos rfl]
    | false =>
      refine ⟨fun h => ?_, fun h => ?_⟩
      · cases h
      · cases hpath.symm.trans (hentry h)
  | none =>
    simp only [true_and, pathOf, Option.getD_none]
    cases hpath : fs.hasEntry (defaultPath fs root) with
    | true => simp
    | false =>
      simp only [Bool.false_eq_true, if_false, hdefault, true_and, iff_self_or]
      intro h
      cases hpath.symm.trans (hentry h)

theorem bounds_of_loadWith (h : loadWith reader fs named root = .ok s) :
    1 ≤ s.indentOffset ∧ s.indentOffset ≤ maxOffset := by
  obtain ⟨width, hfound, hoffset⟩ := loadWith_eq_ok_iff.mp h
  rw [hoffset]
  cases width with
  | none => exact ⟨by decide, by decide⟩
  | some n => exact hfound.bounds

theorem loadWith_congr {fs' : FileSystem} (h : SameFile fs fs' named root) :
    loadWith reader fs' named root = loadWith reader fs named root := by
  obtain ⟨hpath, hentry⟩ := h
  have hhas : fs'.hasEntry (pathOf fs named root) = fs.hasEntry (pathOf fs named root) := by
    rw [FileSystem.hasEntry, hentry]
    rfl
  have hfile : ofFile reader fs' (pathOf fs named root)
      = ofFile reader fs (pathOf fs named root) := by
    rw [ofFile, FileSystem.read, hentry]
    rfl
  unfold loadWith
  cases named with
  | some path =>
    rw [pathOf, Option.getD_some] at hhas hfile
    simp only [hhas, hfile]
  | none =>
    simp only [pathOf, Option.getD_none] at hpath hhas hfile
    simp only [hpath, hhas, hfile]

end Loading

/-! ## Values over the settings -/

theorem merge_eq_ok_iff {n : Nat} (hn : n < 2 ^ 53) {base s : Settings} :
    merge base.toData (.record [(offsetField, .ofNat n)]) = .ok s
      ↔ 1 ≤ n ∧ n ≤ maxOffset ∧ s = ⟨n⟩ := by
  have hover : overridden base.toData (.record [(offsetField, .ofNat n)])
      = .record [(offsetField, .ofNat n)] := by
    simp [overridden, Data.field?, toData, Data.members, Data.setField]
  rw [merge, mapError_eq_ok_iff, hover, validate_eq_ok_iff]
  constructor
  · rintro ⟨width, hgives, hoffset⟩
    obtain ⟨hlow, hhigh, rfl⟩ := (gives_singleton_iff hn).mp hgives
    exact ⟨hlow, hhigh, congrArg Settings.mk hoffset⟩
  · rintro ⟨hlow, hhigh, rfl⟩
    exact ⟨some n, (gives_singleton_iff hn).mpr ⟨hlow, hhigh, rfl⟩, rfl⟩

theorem merge_nothing {s : Settings} (hlow : 1 ≤ s.indentOffset)
    (hhigh : s.indentOffset ≤ maxOffset) : merge s.toData (.record []) = .ok s := by
  have hn : s.indentOffset < 2 ^ 53 := Nat.lt_of_le_of_lt hhigh (by decide)
  rw [merge, mapError_eq_ok_iff, validate_eq_ok_iff]
  exact ⟨some s.indentOffset, (gives_singleton_iff hn).mpr ⟨hlow, hhigh, rfl⟩, rfl⟩

end JadeEditor.Settings
