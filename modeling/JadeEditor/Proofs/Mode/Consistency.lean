import JadeEditor.Mode.Registry
import Mathlib.Data.List.Nodup

/-!
# The registry stays consistent

A registry keeps its modes and the owners of extensions apart, and a file is looked up
through both. After any calls, refused ones among them, an extension is owned by the one
mode that has it, provided no mode has an empty id: then a file is given the mode that
claims its extension, for good.
-/

namespace JadeEditor

set_option autoImplicit false

/-- The extension of the path is one of the mode's. -/
def Mode.Claims (m : Mode) (path : Text) : Prop :=
  Path.normalExtension path ∈ m.extensions.map normalExtension

instance (m : Mode) (path : Text) : Decidable (m.Claims path) :=
  inferInstanceAs (Decidable (_ ∈ _))

namespace Registry

variable {r s : Registry} {m n : Mode}

/-! ## A call -/

def extended (r : Registry) (m : Mode) : Registry :=
  ⟨r.modes ++ [m], (m.extensions.map normalExtension).foldl (claim m.id) r.owners⟩

theorem forM_claim (id : Text) (es : List Text) (r : Registry) :
    (es.forM fun e => modify fun r => { r with owners := claim id r.owners e } : Registration) r
      = .ok () { r with owners := es.foldl (claim id) r.owners } := by
  induction es generalizing r with
  | nil => rfl
  | cons e es ih => exact ih { r with owners := claim id r.owners e }

theorem enrol_run (m : Mode) (r : Registry) :
    enrol m r = match r.conflict? m with
      | some c => .error c r
      | none => ((m.extensions.map normalExtension).forM fun e =>
          modify fun r => { r with owners := claim m.id r.owners e } : Registration)
        { r with modes := r.modes ++ [m] } := by
  unfold enrol
  change (match r.conflict? m with
    | some c => throw c
    | none => _ : Registration) r = _
  cases r.conflict? m with
  | some c => rfl
  | none => rfl

theorem enrol_of_conflict {c : Conflict} (h : r.conflict? m = some c) : enrol m r = .error c r := by
  rw [enrol_run, h]

theorem enrol_of_free (h : r.conflict? m = none) : enrol m r = .ok () (r.extended m) := by
  rw [enrol_run, h]
  exact forM_claim m.id _ { r with modes := r.modes ++ [m] }

/-- The registry behind a call, refused or not. -/
def attempt (r : Registry) (m : Mode) : Registry :=
  match enrol m r with
  | .ok _ s => s
  | .error _ s => s

theorem attempt_cases (r : Registry) (m : Mode) :
    r.attempt m = r ∨ r.conflict? m = none ∧ r.attempt m = r.extended m := by
  unfold attempt
  cases h : r.conflict? m with
  | some c =>
    rw [enrol_of_conflict h]
    exact .inl rfl
  | none =>
    rw [enrol_of_free h]
    exact .inr ⟨rfl, rfl⟩

/-! ## Looking up -/

theorem extensionConflict?_eq_none_iff (r : Registry) (id : Text) (es : List Text) :
    r.extensionConflict? id es = none ↔ ∀ e ∈ es, r.claimant? e = none := by
  induction es with
  | nil => simp [extensionConflict?]
  | cons e es ih =>
    rw [extensionConflict?, List.forall_mem_cons]
    cases h : r.claimant? e with
    | some owner => simp
    | none => simpa using ih

theorem conflict?_eq_none_iff (r : Registry) (m : Mode) :
    r.conflict? m = none
      ↔ r.get? m.id = none ∧ ∀ e ∈ m.extensions.map normalExtension, r.claimant? e = none := by
  unfold conflict?
  rw [← extensionConflict?_eq_none_iff r m.id]
  cases r.get? m.id with
  | some n => simp
  | none => simp

theorem owner?_claim (modes : List Mode) (owners : List (Text × Text)) (id e x : Text) :
    (Registry.mk modes (claim id owners e)).owner? x
      = if x = e then some id else (Registry.mk modes owners).owner? x := by
  unfold owner? claim
  by_cases hlisted : (owners.any fun o => o.1 = e) = true
  · -- The keys stay, so the same entry is found as before.
    have hkeys : ((fun o => decide (o.1 = x)) ∘ fun o : Text × Text => if o.1 = e then (e, id) else o)
        = fun o => decide (o.1 = x) := by
      funext o
      by_cases ho : o.1 = e
      · simp [ho]
      · simp [ho]
    rw [if_pos hlisted]
    simp only [List.find?_map, hkeys]
    cases hfind : owners.find? fun o => decide (o.1 = x) with
    | none =>
      rw [List.find?_eq_none] at hfind
      obtain ⟨o, ho, hkey⟩ := List.any_eq_true.mp hlisted
      have hx : x ≠ e := by
        rintro rfl
        exact hfind o ho hkey
      simp [hx]
    | some found =>
      have hkey : found.1 = x := by simpa using List.find?_some hfind
      by_cases hx : x = e
      · simp [hkey, hx]
      · simp [hkey, hx]
  · have hnone : (owners.find? fun o => decide (o.1 = e)) = none := by
      rw [List.find?_eq_none]
      intro o ho hkey
      exact hlisted (List.any_eq_true.mpr ⟨o, ho, hkey⟩)
    rw [if_neg hlisted]
    by_cases hx : x = e
    · subst hx
      simp [List.find?_append, hnone]
    · have hnew : ¬ e = x := fun heq => hx heq.symm
      simp [List.find?_append, hx, hnew]

theorem owner?_claimAll (modes : List Mode) (owners : List (Text × Text)) (id x : Text)
    (es : List Text) :
    (Registry.mk modes (es.foldl (claim id) owners)).owner? x
      = if x ∈ es then some id else (Registry.mk modes owners).owner? x := by
  induction es generalizing owners with
  | nil => simp
  | cons e es ih =>
    rw [List.foldl_cons, ih, owner?_claim]
    by_cases hrest : x ∈ es
    · simp [hrest]
    · simp [hrest]

theorem owner?_extended (r : Registry) (m : Mode) (x : Text) :
    (r.extended m).owner? x
      = if x ∈ m.extensions.map normalExtension then some m.id else r.owner? x :=
  owner?_claimAll _ _ _ _ _

/-! ## Consistency -/

structure Consistent (r : Registry) : Prop where
  named : ∀ m ∈ r.modes, m.id ≠ []
  distinct : (r.modes.map Mode.id).Nodup
  owned : ∀ e id, r.owner? e = some id ↔
    ∃ m ∈ r.modes, m.id = id ∧ e ∈ m.extensions.map normalExtension

theorem consistent_empty : Consistent empty where
  named _ hm := absurd hm List.not_mem_nil
  distinct := List.nodup_nil
  owned e id := by simp [owner?, empty]

namespace Consistent

theorem get?_eq_some_iff (h : r.Consistent) {id : Text} :
    r.get? id = some m ↔ m ∈ r.modes ∧ m.id = id := by
  constructor
  · intro hget
    exact ⟨List.mem_of_find?_eq_some hget, by simpa using List.find?_some hget⟩
  · rintro ⟨hm, rfl⟩
    have hsome : (r.get? m.id).isSome := List.find?_isSome.mpr ⟨m, hm, decide_eq_true rfl⟩
    obtain ⟨n, hget⟩ := Option.isSome_iff_exists.mp hsome
    have hid : n.id = m.id := by simpa using List.find?_some hget
    rwa [List.inj_on_of_nodup_map h.distinct (List.mem_of_find?_eq_some hget) hm hid] at hget

/-- Since every owner has an id, an extension that is owned is taken. -/
theorem claimant?_eq_owner? (h : r.Consistent) (e : Text) : r.claimant? e = r.owner? e := by
  unfold claimant?
  cases howner : r.owner? e with
  | none => rfl
  | some id =>
    obtain ⟨m, hm, rfl, -⟩ := (h.owned e id).mp howner
    have hid := h.named m hm
    simp [Option.filter, hid]

theorem detect?_eq_some_iff (h : r.Consistent) {path : Text} :
    r.detect? path = some m ↔ m ∈ r.modes ∧ m.Claims path := by
  unfold detect?
  rw [h.claimant?_eq_owner?, Option.bind_eq_some_iff]
  constructor
  · rintro ⟨id, howner, hget⟩
    obtain ⟨n, hn, rfl, hclaims⟩ := (h.owned _ id).mp howner
    have hown := h.get?_eq_some_iff.mpr ⟨hn, rfl⟩
    obtain rfl : n = m := Option.some.inj (hown.symm.trans hget)
    exact ⟨hn, hclaims⟩
  · rintro ⟨hm, hclaims⟩
    exact ⟨m.id, (h.owned _ _).mpr ⟨m, hm, rfl, hclaims⟩, h.get?_eq_some_iff.mpr ⟨hm, rfl⟩⟩

theorem eq_of_claims (h : r.Consistent) {path : Text} (hm : m ∈ r.modes) (hn : n ∈ r.modes)
    (hmc : m.Claims path) (hnc : n.Claims path) : m = n := by
  have hfirst := h.detect?_eq_some_iff.mpr ⟨hm, hmc⟩
  have hsecond := h.detect?_eq_some_iff.mpr ⟨hn, hnc⟩
  exact Option.some.inj (hfirst.symm.trans hsecond)

theorem extended (h : r.Consistent) (hid : m.id ≠ []) (hfree : r.conflict? m = none) :
    (r.extended m).Consistent := by
  obtain ⟨hnew, hclaimed⟩ := (conflict?_eq_none_iff r m).mp hfree
  refine ⟨?_, ?_, ?_⟩
  · intro n hn
    rcases List.mem_append.mp hn with hn | hn
    · exact h.named n hn
    · rw [List.mem_singleton.mp hn]
      exact hid
  · have hfresh : m.id ∉ r.modes.map Mode.id := by
      intro hmem
      obtain ⟨n, hn, heq⟩ := List.mem_map.mp hmem
      rw [h.get?_eq_some_iff.mpr ⟨hn, heq⟩] at hnew
      cases hnew
    change ((r.modes ++ [m]).map Mode.id).Nodup
    rw [List.map_append]
    exact h.distinct.append (List.nodup_singleton _) (List.disjoint_singleton.mpr hfresh)
  · intro e id
    rw [owner?_extended]
    by_cases he : e ∈ m.extensions.map normalExtension
    · -- Nobody else has the extension, or it would be taken.
      rw [if_pos he]
      constructor
      · intro hsome
        exact ⟨m, List.mem_append_right _ (List.mem_singleton_self m), Option.some.inj hsome, he⟩
      · rintro ⟨n, hn, rfl, hne⟩
        rcases List.mem_append.mp hn with hn | hn
        · have hfreed := hclaimed e he
          rw [h.claimant?_eq_owner?, (h.owned e n.id).mpr ⟨n, hn, rfl, hne⟩] at hfreed
          cases hfreed
        · rw [List.mem_singleton.mp hn]
    · rw [if_neg he, h.owned]
      constructor
      · rintro ⟨n, hn, hrest⟩
        exact ⟨n, List.mem_append_left _ hn, hrest⟩
      · rintro ⟨n, hn, hown, hne⟩
        rcases List.mem_append.mp hn with hn | hn
        · exact ⟨n, hn, hown, hne⟩
        · rw [List.mem_singleton.mp hn] at hne
          exact absurd hne he

theorem attempt (h : r.Consistent) (hid : m.id ≠ []) : (r.attempt m).Consistent := by
  rcases attempt_cases r m with hsame | ⟨hfree, hnext⟩
  · rw [hsame]
    exact h
  · rw [hnext]
    exact h.extended hid hfree

theorem attempts (h : r.Consistent) {calls : List Mode} (hids : ∀ m ∈ calls, m.id ≠ []) :
    (calls.foldl Registry.attempt r).Consistent := by
  induction calls generalizing r with
  | nil => exact h
  | cons m calls ih =>
    apply ih (h.attempt (hids m List.mem_cons_self))
    intro n hn
    exact hids n (List.mem_cons_of_mem m hn)

end Consistent

theorem modes_subset_attempts (r : Registry) (calls : List Mode) :
    r.modes ⊆ (calls.foldl attempt r).modes := by
  induction calls generalizing r with
  | nil => exact List.Subset.refl r.modes
  | cons m calls ih =>
    intro n hn
    apply ih (r.attempt m)
    rcases attempt_cases r m with hsame | ⟨-, hnext⟩
    · rw [hsame]
      exact hn
    · rw [hnext]
      exact List.mem_append_left _ hn

/-! ## Histories -/

/-- The registry behind a series of calls, the refused ones among them. -/
def after (calls : List Mode) : Registry := calls.foldl attempt empty

/-- After any calls with modes that have an id: a call that is refused changes nothing and one
that is not adds its mode, a file is given the registered mode that claims its extension,
which is one at most, and no later call takes it away. -/
theorem registry_stays_consistent (calls : List Mode) (hids : ∀ m ∈ calls, m.id ≠ []) :
    (∀ m c s, enrol m (after calls) = .error c s → s = after calls)
    ∧ (∀ m s, enrol m (after calls) = .ok () s → s.modes = (after calls).modes ++ [m])
    ∧ (∀ path m, (after calls).detect? path = some m ↔ m ∈ (after calls).modes ∧ m.Claims path)
    ∧ (∀ path, ∀ m ∈ (after calls).modes, ∀ n ∈ (after calls).modes,
      m.Claims path → n.Claims path → m = n)
    ∧ ∀ path m more, (∀ n ∈ more, n.id ≠ []) → (after calls).detect? path = some m →
      (after (calls ++ more)).detect? path = some m := by
  have hconsistent : (after calls).Consistent := consistent_empty.attempts hids
  refine ⟨?_, ?_, fun _ _ => hconsistent.detect?_eq_some_iff, ?_, ?_⟩
  · intro m c s hrun
    cases h : (after calls).conflict? m with
    | none =>
      rw [enrol_of_free h] at hrun
      cases hrun
    | some d =>
      rw [enrol_of_conflict h] at hrun
      cases hrun
      rfl
  · intro m s hrun
    cases h : (after calls).conflict? m with
    | none =>
      rw [enrol_of_free h] at hrun
      cases hrun
      rfl
    | some d =>
      rw [enrol_of_conflict h] at hrun
      cases hrun
  · intro path m hm n hn hmc hnc
    exact hconsistent.eq_of_claims hm hn hmc hnc
  · intro path m more hmore hdetect
    obtain ⟨hm, hclaims⟩ := hconsistent.detect?_eq_some_iff.mp hdetect
    have hsplit : after (calls ++ more) = more.foldl attempt (after calls) :=
      List.foldl_append
    rw [hsplit]
    apply (hconsistent.attempts hmore).detect?_eq_some_iff.mpr
    exact ⟨modes_subset_attempts _ more hm, hclaims⟩

/-- A second mode that claims `jade` in capitals is refused between two that are not. The
third one spells its extension twice, and keeps its files when a fourth one is refused. -/
theorem template_is_detected_behind_refusals :
    let second : Mode := ⟨[0x62], [], [utf16 "JADE"]⟩
    let third : Mode := ⟨[0x63], [], [utf16 ".Tpl", utf16 "tpl"]⟩
    let calls := [.jade, second, third]
    let path := utf16 "a/b.TPL"
    (∀ m ∈ calls, m.id ≠ []) ∧ (after calls).modes = [.jade, third]
      ∧ (after calls).detect? path = some third
      ∧ (after (calls ++ [⟨[0x64], [], [utf16 "tpl"]⟩])).detect? path = some third := by
  intro second third calls path
  have hids : ∀ m ∈ calls, m.id ≠ [] := by decide
  have hmodes : (after calls).modes = [.jade, third] := by decide +kernel
  have hclaims : third.Claims path := by decide +kernel
  obtain ⟨-, -, hdetect, -, hlasting⟩ := registry_stays_consistent calls hids
  have hthird : (after calls).detect? path = some third := by
    rw [hdetect, hmodes]
    exact ⟨List.mem_cons_of_mem _ (List.mem_singleton_self third), hclaims⟩
  exact ⟨hids, hmodes, hthird, hlasting path third _ (by decide) hthird⟩

end Registry

end JadeEditor
