import Voxeltoad.Config.Watcher

/-!
# The last good dispatcher

The watcher of `internal/app/watcher.go` once more, with its source.  The gateway reads the snapshot
that was polled last.  The desktop reads a file each time (`Load` of `cmd/desktop/config`), and when
it cannot, its source yields no configuration: so the watcher is asked to build from nothing.

A watcher is meant to keep the dispatcher it has when a configuration cannot be loaded or built.  Of
a configuration that cannot be built that is true.  One that cannot be loaded counts as an empty
one, from which a dispatcher *can* be built, and which replaces the one that served.
-/

set_option autoImplicit false

namespace Voxeltoad
namespace Config

/-! ## The watcher and its source -/

/-- A dispatcher: its forwarders, and the configuration that it routes and prepares by.  `serial`
tells apart dispatchers that were built at different times. -/
structure BuiltDispatcher where
  serial : Nat
  forwarders : Forwarders
  dyn : Dynamic
  deriving DecidableEq, Repr

/-- `DispatcherWatcher`.  `allocated` dispatchers have been built so far. -/
structure DispatcherWatcher where
  disp : Option BuiltDispatcher
  lastVersion : String
  allocated : Nat
  deriving DecidableEq, Repr

/-- `NewDispatcherWatcher`. -/
def newDispatcherWatcher : DispatcherWatcher := ⟨none, "", 0⟩

/-- A call of `Build` (which has `force`) or of `Refresh`, with what the source yields and the
secrets as they are then. -/
structure Attempt where
  force : Bool
  source : Option Dynamic
  resolve : String → Except SecretError String

namespace DispatcherWatcher

/-- **`rebuild`.** -/
def rebuild (w : DispatcherWatcher) (a : Attempt) : DispatcherWatcher :=
  let dyn := a.source.getD .zero
  if a.force = false ∧ dyn.version = w.lastVersion ∧ w.disp ≠ none then w
  else
    match buildDispatcher a.resolve dyn with
    | .error _ => w
    | .ok fs => ⟨some ⟨w.allocated, fs, dyn⟩, dyn.version, w.allocated + 1⟩

/-- The watcher as the rest of the data plane sees it. -/
def toWatcher (w : DispatcherWatcher) : Watcher :=
  ⟨w.lastVersion, w.disp.map BuiltDispatcher.forwarders⟩

/-- The two models of `rebuild` agree. -/
theorem toWatcher_rebuild (w : DispatcherWatcher) (a : Attempt) :
    (w.rebuild a).toWatcher = w.toWatcher.rebuild a.resolve a.force (a.source.getD .zero) := by
  have hdisp : w.toWatcher.disp ≠ none ↔ w.disp ≠ none := by
    rw [toWatcher, ne_eq, Option.map_eq_none_iff]
  have hversion : w.toWatcher.lastVersion = w.lastVersion := rfl
  rw [rebuild, Watcher.rebuild, hversion]
  simp only [hdisp]
  split
  · rfl
  · cases buildDispatcher a.resolve (a.source.getD .zero) with
    | error e => rfl
    | ok fs => rfl

end DispatcherWatcher

/-! ## Keeping what is good -/

/-- **The last good dispatcher is kept**, in a call: if there is no configuration, or none that can
be built, the dispatcher and the version stay as they are; and a new dispatcher is one of a
configuration that was loaded. -/
def KeepsLastGood (w : DispatcherWatcher) (a : Attempt) : Prop :=
  ((a.source = none ∨ ∃ dyn e, a.source = some dyn ∧ buildDispatcher a.resolve dyn = .error e) →
      (w.rebuild a).disp = w.disp ∧ (w.rebuild a).lastVersion = w.lastVersion) ∧
    ((w.rebuild a).disp ≠ w.disp → ∃ dyn fs, a.source = some dyn ∧
      buildDispatcher a.resolve dyn = .ok fs ∧
      (w.rebuild a).disp = some ⟨w.allocated, fs, dyn⟩ ∧ (w.rebuild a).lastVersion = dyn.version)

/-- **A configuration is missing only where that is not noticed**: in a `Refresh` of a watcher whose
dispatcher has no version. -/
def Unnoticed (w : DispatcherWatcher) (a : Attempt) : Prop :=
  a.source = none → a.force = false ∧ w.lastVersion = ""

/-- A watcher that has built a dispatcher. -/
def Serving (w : DispatcherWatcher) : Prop := ∃ d, w.disp = some d ∧ d.serial < w.allocated

variable {w : DispatcherWatcher} {a : Attempt}

theorem buildDispatcher_zero (resolve : String → Except SecretError String) :
    buildDispatcher resolve .zero = .ok ⟨[]⟩ := rfl

theorem Serving.rebuild (h : Serving w) (a : Attempt) : Serving (w.rebuild a) := by
  rw [DispatcherWatcher.rebuild]
  split
  · exact h
  · split
    · exact h
    · exact ⟨_, rfl, Nat.lt_succ_self _⟩

/-- With a configuration, a watcher does as it should. -/
theorem keepsLastGood_of_loaded {dyn : Dynamic} (h : a.source = some dyn) : KeepsLastGood w a := by
  have hsource : a.source.getD .zero = dyn := by rw [h, Option.getD_some]
  rw [KeepsLastGood, DispatcherWatcher.rebuild, hsource, h]
  split
  · exact ⟨fun _ ↦ ⟨rfl, rfl⟩, fun hne ↦ absurd rfl hne⟩
  · split
    · exact ⟨fun _ ↦ ⟨rfl, rfl⟩, fun hne ↦ absurd rfl hne⟩
    · rename_i fs hfs
      refine ⟨?_, fun _ ↦ ⟨dyn, fs, rfl, hfs, rfl, rfl⟩⟩
      rintro (hnone | ⟨dyn', e, hdyn, herror⟩)
      · cases hnone
      · cases hdyn
        cases hfs.symm.trans herror

/-- Without one, a watcher that serves keeps its dispatcher only if it does not notice. -/
theorem keepsLastGood_iff (hserving : Serving w) : KeepsLastGood w a ↔ Unnoticed w a := by
  cases hsource : a.source with
  | some dyn =>
    refine ⟨fun _ hnone ↦ ?_, fun _ ↦ keepsLastGood_of_loaded hsource⟩
    cases hsource.symm.trans hnone
  | none =>
    obtain ⟨d, hd, hserial⟩ := hserving
    have hdisp : w.disp ≠ none := fun hnone ↦ by cases hd.symm.trans hnone
    have hzero : a.source.getD .zero = .zero := by rw [hsource, Option.getD_none]
    constructor
    · intro hkeeps _
      by_contra hnoticed
      have hbuilt : (w.rebuild a).disp = some ⟨w.allocated, ⟨[]⟩, .zero⟩ := by
        rw [DispatcherWatcher.rebuild, hzero]
        rw [if_neg fun h ↦ hnoticed ⟨h.1, h.2.1.symm⟩, buildDispatcher_zero]
      have hsame := (hkeeps.1 (.inl hsource)).1
      rw [hbuilt, hd] at hsame
      -- The new dispatcher is not the old one.
      have : w.allocated = d.serial := congrArg BuiltDispatcher.serial (Option.some.inj hsame)
      omega
    · intro hunnoticed
      obtain ⟨hforce, hversion⟩ := hunnoticed hsource
      have hkept : w.rebuild a = w := by
        rw [DispatcherWatcher.rebuild, hzero]
        exact if_pos ⟨hforce, hversion.symm, hdisp⟩
      rw [KeepsLastGood, hkept]
      exact ⟨fun _ ↦ ⟨rfl, rfl⟩, fun hne ↦ absurd rfl hne⟩

/-! ## Runs -/

/-- **The last good dispatcher over a run.**  After a first `Build` that succeeded, every call keeps
it if and only if a configuration is missing only where that is not noticed. -/
theorem last_good_iff (first : Attempt) (attempts : List Attempt) (hforce : first.force = true)
    (hbuilt : (newDispatcherWatcher.rebuild first).disp ≠ none) :
    Run.Along DispatcherWatcher.rebuild KeepsLastGood
    (newDispatcherWatcher.rebuild first) attempts ↔
      Run.Along DispatcherWatcher.rebuild Unnoticed (newDispatcherWatcher.rebuild first)
      attempts := by
  have hserving : Serving (newDispatcherWatcher.rebuild first) := by
    rw [DispatcherWatcher.rebuild] at hbuilt ⊢
    rw [if_neg fun h ↦ by cases hforce.symm.trans h.1] at hbuilt ⊢
    split at hbuilt
    · exact absurd rfl hbuilt
    · rename_i fs hfs
      exact ⟨_, rfl, Nat.lt_succ_self _⟩
  exact Run.along_iff (fun _ a h ↦ Serving.rebuild h a) (fun _ _ h ↦ keepsLastGood_iff h) hserving

/-- A configuration with one provider. -/
def Dynamic.oneProvider (version apiKeyRef : String) : Dynamic where
  version := version
  providers :=
    [⟨"p", "openai", [⟨"", "openai", "https://upstream", none⟩], apiKeyRef, ⟨0, 0, 0⟩, 1⟩]
  models := []
  routes := [⟨"m", [⟨"p", 1⟩], "priority"⟩]
  plugins := []
  settings := none

/-- Secrets of which one is missing. -/
def secrets (ref : String) : Except SecretError String :=
  if ref = "env://MISSING" then .error (.envNotSet "MISSING") else .ok ref

/-- A `Build`, and then a `Refresh` with a configuration that cannot be built. -/
theorem last_good_kept :
    Run.Along DispatcherWatcher.rebuild KeepsLastGood
      (newDispatcherWatcher.rebuild ⟨true, some (.oneProvider "local" "plain://k"), secrets⟩)
      [⟨false, some (.oneProvider "v2" "env://MISSING"), secrets⟩] := by
  refine (last_good_iff ⟨true, some (.oneProvider "local" "plain://k"), secrets⟩
    [⟨false, some (.oneProvider "v2" "env://MISSING"), secrets⟩] rfl (by decide)).mpr ⟨?_, trivial⟩
  intro hnone
  cases hnone

/-- The file of the desktop cannot be read, and the dispatcher that served is gone. -/
theorem last_good_lost :
    ¬∀ (first : Attempt) (attempts : List Attempt), first.force = true →
      (newDispatcherWatcher.rebuild first).disp ≠ none →
      Run.Along DispatcherWatcher.rebuild KeepsLastGood (newDispatcherWatcher.rebuild first)
      attempts := by
  intro hall
  have hkeeps := (hall ⟨true, some (.oneProvider "local" "plain://k"), secrets⟩
    [⟨false, none, secrets⟩] rfl (by decide)).1
  have hsame := (hkeeps.1 (.inl rfl)).2
  revert hsame
  decide

end Config
end Voxeltoad
