import JadeEditor.Proofs.Cli.Ending
import JadeEditor.Proofs.Cli.Numeral
import JadeEditor.Proofs.Settings.Validity

/-!
# The width of a level in force

The flag goes over the settings file, and the settings file over the default. Whichever it
comes from, the width that a source is worked on with is from one to sixteen; where there is
none, loading fails before it asks for the source file.
-/

namespace JadeEditor.Cli

set_option autoImplicit false

open Settings

/-- The width of a level is `n`: by the flag if it is given, else by the settings file if it
gives one, else by default. The settings file is sound in each case. -/
inductive InForce (reader : Reader) (fs : FileSystem) (options : CommonOptions) : Nat → Prop
  | flag {value : Text} {width : Option Nat} {n : Nat} : options.indentOffset = some value →
    Found reader fs options.config none width → value.IsNumeral n → 1 ≤ n → n ≤ maxOffset →
    InForce reader fs options n
  | file {n : Nat} : options.indentOffset = none → Found reader fs options.config none (some n) →
    InForce reader fs options n
  | default : options.indentOffset = none → Found reader fs options.config none none →
    InForce reader fs options defaultOffset

/-- What becomes of a run that has its width: the kind of the file is unknown, or the file
cannot be read, or there is a source that is indented by this width. -/
inductive Opens (fs : FileSystem) (file : Text) (n : Nat) (r : Report) :
    EStateM.Result Raised Report Source → Prop
  | unsupported : registry.detect? file = none →
    Opens fs file n r (.error (.ofFault (unsupported file)) r)
  | unreadable {problem : ReadProblem} : registry.detect? file ≠ none →
    fs.read file = .error problem →
    Opens fs file n r (.error (.ofFault (unreadable file problem)) r)
  | source {t : Text} {source : Source} : registry.detect? file ≠ none → fs.read file = .ok t →
    source.document = .ofText t → source.unit = n → source.indenter = .lookback n →
    Opens fs file n r (.ok source r)

section

variable {reader : Reader} {fs : FileSystem} {options : CommonOptions} {s : Settings}

/-! ## Putting the flag over the file -/

theorem settingsWith_of_unloaded {p : LoadProblem}
    (h : loadWith reader fs options.config none = .error p) :
    settingsWith reader fs options = .error p.toFault := by
  rw [settingsWith, h]
  rfl

theorem settingsWith_of_none (h : loadWith reader fs options.config none = .ok s)
    (hflag : options.indentOffset = none) : settingsWith reader fs options
      = (merge s.toData (.record [])).mapError OverrideProblem.toFault := by
  rw [settingsWith, h, hflag]
  rfl

theorem settingsWith_of_some {value : Text} (h : loadWith reader fs options.config none = .ok s)
    (hflag : options.indentOffset = some value) : settingsWith reader fs options
      = (do
          let n ← parsePositive (utf16 "--indent-offset") value
          (merge s.toData (.record [(offsetField, .ofNat n)])).mapError
            OverrideProblem.toFault) := by
  rw [settingsWith, h, hflag]
  rfl

/-- Without a sound settings file no width is in force, whether or not there is a flag. -/
theorem InForce.exists_found {n : Nat} (h : InForce reader fs options n) :
    ∃ width, Found reader fs options.config none width := by
  cases h with
  | flag _ hfound => exact ⟨_, hfound⟩
  | file _ hfound => exact ⟨_, hfound⟩
  | default _ hfound => exact ⟨_, hfound⟩

theorem InForce.bounds {n : Nat} (h : InForce reader fs options n) : 1 ≤ n ∧ n ≤ maxOffset := by
  cases h with
  | flag _ _ _ hlow hhigh => exact ⟨hlow, hhigh⟩
  | file _ hfound => exact hfound.bounds
  | default _ _ => exact ⟨by decide, by decide⟩

theorem inForce_of_some {value : Text} {n : Nat} (hflag : options.indentOffset = some value) :
    InForce reader fs options n
      ↔ (∃ width, Found reader fs options.config none width)
        ∧ value.IsNumeral n ∧ 1 ≤ n ∧ n ≤ maxOffset := by
  constructor
  · intro h
    cases h with
    | flag hvalue hfound hnumeral hlow hhigh =>
      obtain rfl := Option.some.inj (hvalue.symm.trans hflag)
      exact ⟨⟨_, hfound⟩, hnumeral, hlow, hhigh⟩
    | file hnone => cases hnone.symm.trans hflag
    | default hnone => cases hnone.symm.trans hflag
  · rintro ⟨⟨width, hfound⟩, hnumeral, hlow, hhigh⟩
    exact .flag hflag hfound hnumeral hlow hhigh

theorem inForce_of_none {n : Nat} (hflag : options.indentOffset = none) :
    InForce reader fs options n
      ↔ ∃ width, Found reader fs options.config none width ∧ n = width.getD defaultOffset := by
  constructor
  · intro h
    cases h with
    | flag hvalue => cases hvalue.symm.trans hflag
    | file _ hfound => exact ⟨_, hfound, rfl⟩
    | default _ hfound => exact ⟨_, hfound, rfl⟩
  · rintro ⟨width, hfound, rfl⟩
    cases width with
    | none => exact .default hflag hfound
    | some n => exact .file hflag hfound

theorem overruled_eq_ok_iff {value : Text} {base : Settings} :
    (do
        let n ← parsePositive (utf16 "--indent-offset") value
        (merge base.toData (.record [(offsetField, .ofNat n)])).mapError
          OverrideProblem.toFault) = .ok s
      ↔ value.IsNumeral s.indentOffset ∧ 1 ≤ s.indentOffset ∧ s.indentOffset ≤ maxOffset := by
  rw [parsePositive]
  cases hvalue : positive? value with
  | none =>
    constructor
    · intro h
      cases h
    · rintro ⟨hnumeral, hlow, hhigh⟩
      have hmax : s.indentOffset ≤ maxSafe := Nat.le_trans hhigh (by decide)
      cases hvalue.symm.trans (positive?_eq_some_iff.mpr ⟨hnumeral, hlow, hmax⟩)
  | some n =>
    obtain ⟨hnumeral, -, hmax⟩ := positive?_eq_some_iff.mp hvalue
    have hsafe : n < 2 ^ 53 := Nat.lt_of_le_of_lt hmax (by decide)
    refine mapError_eq_ok_iff.trans ((merge_eq_ok_iff hsafe).trans ?_)
    constructor
    · rintro ⟨hlow, hhigh, rfl⟩
      exact ⟨hnumeral, hlow, hhigh⟩
    · rintro ⟨hwidth, hlow, hhigh⟩
      have hn := hwidth.unique hnumeral
      exact ⟨hn ▸ hlow, hn ▸ hhigh, congrArg Settings.mk hn⟩

/-- The settings that a command works with are those with the width in force. -/
theorem settingsWith_eq_ok_iff :
    settingsWith reader fs options = .ok s ↔ InForce reader fs options s.indentOffset := by
  cases hload : loadWith reader fs options.config none with
  | error p =>
    rw [settingsWith_of_unloaded hload]
    refine ⟨fun h => ?_, fun h => ?_⟩
    · cases h
    · obtain ⟨width, hfound⟩ := h.exists_found
      cases hload.symm.trans (loadWith_eq_ok_iff.mpr ⟨width, hfound, rfl⟩)
  | ok base =>
    cases hflag : options.indentOffset with
    | none =>
      obtain ⟨hlow, hhigh⟩ := bounds_of_loadWith hload
      rw [settingsWith_of_none hload hflag, merge_nothing hlow hhigh, mapError_eq_ok_iff,
        inForce_of_none hflag, ← loadWith_eq_ok_iff, hload, Except.ok.injEq, Except.ok.injEq]
    | some value =>
      obtain ⟨width, hfound, -⟩ := loadWith_eq_ok_iff.mp hload
      rw [settingsWith_of_some hload hflag, inForce_of_some hflag, overruled_eq_ok_iff]
      exact (and_iff_right ⟨width, hfound⟩).symm

/-- A flag goes over a sound settings file, and does not make up for one that is not. -/
example :
    let fs : FileSystem := { workingDirectory := [], entry := fun _ => .file [] }
    let file (n : Nat) : Reader := fun _ => .ok (some (.record [(offsetField, .ofNat n)]))
    let options : CommonOptions := { indentOffset := some (utf16 " 08") }
    (settingsWith (file 2) fs options).toOption = some ⟨8⟩
      ∧ (settingsWith (file 17) fs options).toOption = none := by
  decide +kernel

/-- Without settings there is a fault: one of the settings, or one of the flag if the settings
file is sound. -/
theorem kind_of_settingsWith {f : Fault} (h : settingsWith reader fs options = .error f) :
    f.kind = .config
      ∨ f.kind = .input ∧ ∃ width, Found reader fs options.config none width := by
  cases hload : loadWith reader fs options.config none with
  | error p =>
    cases (settingsWith_of_unloaded hload).symm.trans h
    exact .inl rfl
  | ok base =>
    have hmerge {overrides : Data}
        (hf : (merge base.toData overrides).mapError OverrideProblem.toFault = .error f) :
        f.kind = .config := by
      cases hresult : merge base.toData overrides with
      | error p =>
        rw [hresult] at hf
        cases hf
        rfl
      | ok s =>
        rw [hresult] at hf
        cases hf
    cases hflag : options.indentOffset with
    | none => exact .inl (hmerge ((settingsWith_of_none hload hflag).symm.trans h))
    | some value =>
      rw [settingsWith_of_some hload hflag, parsePositive] at h
      cases hvalue : positive? value with
      | none =>
        rw [hvalue] at h
        cases h
        obtain ⟨width, hfound, -⟩ := loadWith_eq_ok_iff.mp hload
        exact .inr ⟨rfl, width, hfound⟩
      | some n =>
        rw [hvalue] at h
        exact .inl (hmerge h)

theorem settingsWith_congr {fs' : FileSystem} (h : SameFile fs fs' options.config none) :
    settingsWith reader fs' options = settingsWith reader fs options := by
  rw [settingsWith, loadWith_congr h]
  rfl

/-! ## Opening the source -/

theorem opens_of_settled (h : settingsWith reader fs options = .ok s) (style : Style)
    (file : Text) (r : Report) :
    Opens fs file s.indentOffset (r.logged style.verbose [offsetMessage s])
      (loadSourceWith reader fs style file options r) := by
  rw [loadSourceWith_of_settled h]
  cases hkind : registry.detect? file with
  | none => exact .unsupported hkind
  | some mode =>
    have hknown : registry.detect? file ≠ none := by simp [hkind]
    cases hread : fs.read file with
    | error problem => exact .unreadable hknown hread
    | ok t => exact .source hknown hread rfl rfl rfl

end

/-- Loading a source either has a width of a level, the one of the flag, the settings file or
the default, which is from one to sixteen and is what the source is indented by; or it fails
with a fault of the settings or of the flag, before it has looked at the source file. A settings
file that is not sound is a fault of the settings even if there is a flag. -/
theorem width_in_force_is_valid (reader : Reader) (fs : FileSystem) (options : CommonOptions) :
    (∃ n, InForce reader fs options n ∧ (∀ m, InForce reader fs options m → m = n)
        ∧ 1 ≤ n ∧ n ≤ 16
        ∧ ∀ style file r, Opens fs file n (r.logged style.verbose [offsetMessage ⟨n⟩])
          (loadSourceWith reader fs style file options r))
      ∨ (∀ n, ¬ InForce reader fs options n)
        ∧ ∃ f : Fault, (f.kind = .config ∨ f.kind = .input)
          ∧ ((∀ width, ¬ Found reader fs options.config none width) → f.kind = .config)
          ∧ ∀ fs', SameFile fs fs' options.config none → ∀ style file r,
            loadSourceWith reader fs' style file options r = .error (.ofFault f) r := by
  cases hsettings : settingsWith reader fs options with
  | ok s =>
    have hforce := settingsWith_eq_ok_iff.mp hsettings
    refine .inl ⟨s.indentOffset, hforce, fun m hm => ?_, hforce.bounds.1, hforce.bounds.2,
      opens_of_settled hsettings⟩
    have hm' : settingsWith reader fs options = .ok ⟨m⟩ := settingsWith_eq_ok_iff.mpr hm
    exact congrArg Settings.indentOffset (Except.ok.inj (hm'.symm.trans hsettings))
  | error f =>
    have hkind := kind_of_settingsWith hsettings
    refine .inr ⟨fun n hn => ?_, f, hkind.imp_right And.left, fun hnone => ?_, ?_⟩
    · have hok : settingsWith reader fs options = .ok ⟨n⟩ := settingsWith_eq_ok_iff.mpr hn
      cases hok.symm.trans hsettings
    · obtain hconfig | ⟨-, width, hfound⟩ := hkind
      · exact hconfig
      · exact absurd hfound (hnone width)
    · intro fs' hsame style file r
      exact loadSourceWith_of_unsettled ((settingsWith_congr hsame).trans hsettings) style file r

end JadeEditor.Cli
