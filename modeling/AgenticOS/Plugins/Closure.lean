import AgenticOS.Data.Dependencies
import AgenticOS.Plugins.Locks
import AgenticOS.Transition.Run

/-!
# The dependencies of installed plugins

A plugin is installed behind the plugins that it requires, and what others require is not
removed unless that is forced. So the registry always lists the plugins in an order in which
every one stands behind those that it requires, and no plugin requires itself, not even
through others.
-/

namespace AgenticOS.Plugins

open Transition Program List

/-- Each required dependency is there, in its version. -/
def Backed (plugins : List PluginInstance) (manifest : PluginManifest) : Prop :=
  ∀ dep ∈ manifest.dependencies, dep.type = .required →
    ∃ plugin ∈ plugins, plugin.manifest.name = dep.name ∧ plugin.manifest.version = dep.version

/-- The plugins have been installed one by one, each under a new name and behind what it
requires. -/
inductive Founded : List PluginInstance → Prop
  | nil : Founded []
  | install {plugins : List PluginInstance} {plugin : PluginInstance}
      (founded : Founded plugins)
      (new : ∀ other ∈ plugins, other.manifest.name ≠ plugin.manifest.name)
      (backed : Backed plugins plugin.manifest) : Founded (plugins ++ [plugin])

def names (plugins : List PluginInstance) : List String :=
  plugins.map fun plugin => plugin.manifest.name

section

variable {plugins : List PluginInstance}

variable {manifest : PluginManifest}

theorem Backed.append (backed : Backed plugins manifest) (more : List PluginInstance) :
    Backed (plugins ++ more) manifest := by
  intro dep member required
  rcases backed dep member required with ⟨plugin, listed, same⟩
  exact ⟨plugin, mem_append_left more listed, same⟩

theorem Founded.nodup (founded : Founded plugins) : (names plugins).Nodup := by
  induction founded with
  | nil => exact nodup_nil
  | install founded new backed ih =>
    unfold names at ih ⊢
    rw [map_append, map_singleton, nodup_append]
    refine ⟨ih, nodup_singleton _, ?_⟩
    intro name listed other same
    rw [mem_singleton] at same
    rcases mem_map.mp listed with ⟨plugin, member, rfl⟩
    rw [same]
    exact new plugin member

theorem Founded.backed (founded : Founded plugins) :
    ∀ plugin ∈ plugins, Backed plugins plugin.manifest := by
  induction founded with
  | nil => simp
  | install founded new backed ih =>
    intro plugin member
    rcases mem_append.mp member with old | last
    · exact (ih plugin old).append _
    · rw [mem_singleton] at last
      rw [last]
      exact backed.append _

theorem Founded.map (founded : Founded plugins) {change : PluginInstance → PluginInstance}
    (sameManifest : ∀ plugin ∈ plugins, (change plugin).manifest = plugin.manifest) :
    Founded (plugins.map change) := by
  induction founded with
  | nil => exact .nil
  | install founded new backed ih =>
    have sameEarlier := fun plugin member =>
      sameManifest plugin (mem_append_left _ member)
    have sameLast := sameManifest _ (mem_append_right _ mem_cons_self)
    rw [map_append, map_singleton]
    apply Founded.install (ih sameEarlier)
    · intro other member
      rcases mem_map.mp member with ⟨plugin, listed, rfl⟩
      rw [sameEarlier plugin listed, sameLast]
      exact new plugin listed
    · rw [sameLast]
      intro dep member required
      rcases backed dep member required with ⟨plugin, listed, same⟩
      refine ⟨change plugin, mem_map_of_mem listed, ?_⟩
      rw [sameEarlier plugin listed]
      exact same

/-- Nothing that is required by others is removed. -/
def Unneeded (plugins : List PluginInstance) (name : String) : Prop :=
  ∀ plugin ∈ plugins, ∀ dep ∈ plugin.manifest.dependencies, dep.type = .required → dep.name ≠ name

variable {name : String}

theorem Founded.remove (founded : Founded plugins) (unneeded : Unneeded plugins name) :
    Founded (plugins.filter fun plugin => plugin.manifest.name ≠ name) := by
  induction founded with
  | nil => exact .nil
  | @install plugins last founded new backed ih =>
    have earlier : Unneeded plugins name := fun plugin member =>
      unneeded plugin (mem_append_left _ member)
    rw [filter_append]
    by_cases removed : last.manifest.name = name
    · simpa [removed] using ih earlier
    · rw [show [last].filter (fun plugin => plugin.manifest.name ≠ name) = [last] by
        simp [removed]]
      apply Founded.install (ih earlier)
      · intro other member
        exact new other (mem_filter.mp member).1
      · intro dep member required
        rcases backed dep member required with ⟨plugin, listed, same⟩
        refine ⟨plugin, mem_filter.mpr ⟨listed, ?_⟩, same⟩
        rw [decide_eq_true_iff, same.1]
        exact unneeded last (mem_append_right _ mem_cons_self) dep member required

theorem findDependents_eq_nil_iff : findDependents plugins name = [] ↔ Unneeded plugins name := by
  unfold findDependents Unneeded
  simp only [map_eq_nil_iff, filter_eq_nil_iff, any_eq_true, decide_eq_true_eq, not_exists, not_and]
  constructor
  · intro none plugin member dep listed required same
    exact none plugin member dep listed same required
  · intro unneeded plugin member dep listed same required
    exact unneeded plugin member dep listed required same

theorem mem_of_getPlugin {plugin : PluginInstance} (found : getPlugin plugins name = some plugin) :
    plugin ∈ plugins ∧ plugin.manifest.name = name := by
  constructor
  · exact mem_of_find?_eq_some found
  · simpa using find?_some found

theorem getPlugin_eq_none_iff :
    getPlugin plugins name = none ↔ ∀ plugin ∈ plugins, plugin.manifest.name ≠ name := by
  simp [getPlugin]

theorem backed_of_validationErrors {request : PluginInstallRequest}
    (none : validationErrors plugins request manifest = []) : Backed plugins manifest := by
  intro dep member required
  unfold validationErrors at none
  rw [append_eq_nil_iff, append_eq_nil_iff, map_eq_nil_iff, filter_eq_nil_iff] at none
  have holds : satisfied plugins dep = true := by
    by_contra missing
    exact none.1.2 dep member (decide_eq_true ⟨missing, required⟩)
  unfold satisfied at holds
  cases found : getPlugin plugins dep.name with
  | none =>
    rw [found] at holds
    exact absurd holds Bool.false_ne_true
  | some plugin =>
    rw [found] at holds
    rcases mem_of_getPlugin found with ⟨listed, named⟩
    exact ⟨plugin, listed, named, of_decide_eq_true holds⟩

def Carries (manifest : PluginManifest) (plugins : List PluginInstance) : Prop :=
  Founded plugins ∧ ∃ plugin ∈ plugins, plugin.manifest = manifest

theorem Carries.update (carries : Carries manifest plugins) {plugin : PluginInstance}
    (same : plugin.manifest = manifest) :
    Carries manifest (plugins.map fun other =>
      if other.manifest.name = plugin.manifest.name then plugin else other) := by
  rcases carries with ⟨founded, registered, listed, rfl⟩
  have unique (other : PluginInstance) (member : other ∈ plugins)
      (named : other.manifest.name = plugin.manifest.name) : other = registered := by
    apply inj_on_of_nodup_map founded.nodup member listed
    rw [named, same]
  constructor
  · apply founded.map
    intro other member
    split
    next named => rw [unique other member named, same]
    next => rfl
  · refine ⟨plugin, mem_map.mpr ⟨registered, listed, ?_⟩, same⟩
    rw [if_pos (congrArg _ same.symm)]

end

section

abbrev KeepsPlugins {α : Type} (kept : List PluginInstance → Prop) (program : Program α) : Prop :=
  Keeps (fun state : Execution => kept state.plugins) program

variable {α : Type} {kept : List PluginInstance → Prop} {program : Program α}

theorem keeps_unchanged {change : Execution → Execution}
    (same : ∀ state, (change state).plugins = state.plugins) :
    KeepsPlugins kept (modify change : Program PUnit) := by
  apply Keeps.modify
  intro state holds
  rw [same]
  exact holds

theorem keeps_raise (message : String) : KeepsPlugins kept (raise message : Program α) :=
  .throw _

theorem keeps_observe (answer : Nat → α) : KeepsPlugins kept (observe answer) :=
  .modifyGet fun _ holds => holds

theorem keeps_ask (answer : Nat → Except Raised α) : KeepsPlugins kept (ask answer) := by
  apply Keeps.bind (keeps_observe answer)
  intro result
  cases result with
  | ok value => exact .pure value
  | error raised => exact .throw _

theorem keeps_attempting {handler : String → Program α} (keeps : KeepsPlugins kept program)
    (keepsHandler : ∀ message, KeepsPlugins kept (handler message)) :
    KeepsPlugins kept (attempting program handler) := by
  apply Keeps.tryCatch keeps
  intro halt
  cases halt with
  | blocked name => exact .throw _
  | raised raised =>
    cases raised with
    | exception message => exact keepsHandler message
    | cancelled => exact .throw _

variable (name : String)

theorem keeps_withLock (keeps : KeepsPlugins kept program) :
    KeepsPlugins kept (withLock name program) := by
  refine .bind .get fun state => .ite (.throw _) ?_
  refine .bind (keeps_unchanged fun _ => rfl) fun _ => ?_
  apply Keeps.bind
  · apply Keeps.tryCatch keeps
    intro halt
    cases halt with
    | blocked name => exact .throw _
    | raised raised => exact .bind (keeps_unchanged fun _ => rfl) fun _ => .throw _
  · intro result
    exact .bind (keeps_unchanged fun _ => rfl) fun _ => .pure _

variable {env : Environment}

theorem keeps_emit (topic : Topic) : KeepsPlugins kept (emit env topic) :=
  .bind (keeps_ask _) fun _ => keeps_unchanged fun _ => rfl

theorem keeps_endProcess : KeepsPlugins kept (endProcess env name) := by
  refine .bind .get fun state => .ite ?_ (.pure _)
  exact .bind (keeps_unchanged fun _ => rfl) fun _ => keeps_ask _

theorem keeps_updateInstance {manifest : PluginManifest} {plugin : PluginInstance}
    (same : plugin.manifest = manifest) : KeepsPlugins (Carries manifest) (updateInstance plugin) :=
  .modify fun _ carries => carries.update same

theorem keeps_found {name : String} {absent : Program α} {next : PluginInstance → Program α}
    (keepsAbsent : KeepsPlugins Founded absent)
    (keepsNext : ∀ plugin, KeepsPlugins (Carries plugin.manifest) (next plugin)) :
    KeepsPlugins Founded (do
      match getPlugin (← get).plugins name with
      | none => absent
      | some plugin => next plugin) := by
  intro state founded
  change Ends (fun _ after => Founded after.plugins) _ state
  rw [ends_bind, ends_get, andThen_ok]
  cases found : getPlugin state.plugins name with
  | none => exact keepsAbsent.ends founded
  | some plugin =>
    have carries : Carries plugin.manifest state.plugins :=
      ⟨founded, plugin, (mem_of_getPlugin found).1, rfl⟩
    exact ((keepsNext plugin).ends carries).mono fun _ _ carriesAfter => carriesAfter.1

theorem keeps_failing {manifest : PluginManifest} {failed : String → PluginInstance}
    (same : ∀ message, (failed message).manifest = manifest)
    (keeps : KeepsPlugins (Carries manifest) program) :
    KeepsPlugins (Carries manifest) (attempting program fun message => do
      updateInstance (failed message)
      emit env .pluginFailed
      raise message) := by
  apply keeps_attempting keeps
  intro message
  apply Keeps.bind (keeps_updateInstance (same message))
  intro _
  exact .bind (keeps_emit _) fun _ => keeps_raise message

theorem keeps_startPlugin : KeepsPlugins Founded (startPlugin env name) := by
  apply keeps_withLock
  refine keeps_found (keeps_raise _) fun plugin => ?_
  refine .ite (.pure _) ?_
  refine .bind (keeps_updateInstance ?_) fun _ => ?_
  · rfl
  apply Keeps.bind (keeps_emit _)
  intro _
  refine keeps_failing (fun _ => rfl) ?_
  apply Keeps.bind (keeps_observe _)
  intro pid
  refine .bind (keeps_unchanged fun _ => rfl) fun _ => ?_
  refine .bind (keeps_updateInstance ?_) fun _ => ?_
  · rfl
  exact .bind (keeps_emit _) fun _ => .pure _

theorem keeps_stopPlugin : KeepsPlugins Founded (stopPlugin env name) := by
  apply keeps_withLock
  refine keeps_found (keeps_raise _) fun plugin => ?_
  refine .ite (.pure _) ?_
  refine .bind (keeps_updateInstance ?_) fun _ => ?_
  · rfl
  refine keeps_failing (fun _ => rfl) ?_
  apply Keeps.bind (keeps_endProcess name)
  intro _
  refine .bind (keeps_updateInstance ?_) fun _ => ?_
  · rfl
  exact .bind (keeps_emit _) fun _ => .pure _

theorem keeps_restartPlugin : KeepsPlugins Founded (restartPlugin env name) := by
  refine .bind .get fun state => ?_
  cases getPlugin state.plugins name with
  | none => exact keeps_raise _
  | some plugin =>
    refine .ite ?_ (keeps_startPlugin name)
    exact .bind (keeps_stopPlugin name).discard fun _ => keeps_startPlugin name

theorem keeps_setConfig (values : Config) : KeepsPlugins Founded (setConfig env name values) := by
  refine keeps_found (keeps_raise _) fun plugin => ?_
  refine .bind (keeps_updateInstance ?_) fun _ => ?_
  · rfl
  exact .bind (keeps_emit _) fun _ => .pure _

theorem keeps_updatePlugin (config : Option Config) :
    KeepsPlugins Founded (updatePlugin env name config) := by
  apply keeps_withLock
  refine .bind .get fun state => ?_
  cases getPlugin state.plugins name with
  | none => exact keeps_raise _
  | some plugin =>
    cases config with
    | none => exact .pure _
    | some values =>
      apply Keeps.bind (keeps_setConfig name values).discard
      intro _
      exact .bind .get fun _ => .pure _

theorem keeps_stopAll (plugins : List PluginInstance) :
    KeepsPlugins Founded (stopAll env plugins) := by
  induction plugins with
  | nil => exact .pure _
  | cons plugin plugins ih =>
    refine .bind ?_ fun _ => ih
    exact keeps_attempting (keeps_stopPlugin _).discard fun _ => .pure _

theorem keeps_shutdown : KeepsPlugins Founded (shutdown env) :=
  .bind .get fun _ => keeps_stopAll _

end

/-! ## Installing and removing -/

section

structure Removable (name : String) (plugins : List PluginInstance) : Prop where
  founded : Founded plugins
  unneeded : Unneeded plugins name

structure Addable (manifest : PluginManifest) (plugins : List PluginInstance) : Prop where
  founded : Founded plugins
  new : ∀ other ∈ plugins, other.manifest.name ≠ manifest.name
  backed : Backed plugins manifest

variable {env : Environment}

theorem keeps_uninstallPlugin (name : String) :
    KeepsPlugins Founded (uninstallPlugin env name false) := by
  have unneededOrRaised (state : Execution) (founded : Founded state.plugins) :
      Ends (fun result after => Founded after.plugins ∧
          (result = .ok () → Unneeded after.plugins name))
        (checkDependents name false) state := by
    unfold checkDependents
    rw [ends_bind, ends_get, andThen_ok]
    by_cases needed : findDependents state.plugins name ≠ []
    · rw [if_pos ⟨needed, rfl⟩]
      exact ⟨founded, nofun⟩
    · rw [if_neg fun possible => needed possible.1]
      exact ⟨founded, fun _ => findDependents_eq_nil_iff.mp (not_not.mp needed)⟩
  have removal : KeepsPlugins (Removable name) (do
      endProcess env name
      modify fun state =>
        { state with
          plugins := state.plugins.filter fun other => other.manifest.name ≠ name }
      emit env .pluginUninstalled
      pure true) := by
    apply Keeps.bind (keeps_endProcess name)
    intro _
    apply Keeps.bind
    · apply Keeps.modify
      rintro state ⟨founded, unneeded⟩
      exact ⟨founded.remove unneeded, fun plugin member =>
        unneeded plugin (mem_filter.mp member).1⟩
    · intro _
      exact .bind (keeps_emit _) fun _ => .pure _
  apply keeps_withLock
  refine .bind .get fun registered => ?_
  cases getPlugin registered.plugins name with
  | none => exact .pure _
  | some plugin =>
    refine .bind ?_ fun _ => ?_
    · exact .ite (.ite (keeps_stopPlugin name).discard (keeps_raise _)) (.pure _)
    · intro state founded
      change Ends (fun _ after => Founded after.plugins) _ state
      rw [ends_bind]
      apply (unneededOrRaised state founded).mono
      rintro result after ⟨foundedAfter, unneeded⟩
      cases result with
      | error halt => exact foundedAfter
      | ok value =>
        exact (removal.ends ⟨foundedAfter, unneeded rfl⟩).mono fun _ _ holds => holds.founded

theorem ends_addPlugin (request : PluginInstallRequest) {manifest : PluginManifest}
    {state : Execution} (addable : Addable manifest state.plugins) :
    Ends (fun _ after => Founded after.plugins) (addPlugin env request manifest) state := by
  -- it may still be added when its files have been written
  have ready : KeepsPlugins (Addable manifest) (do
      ask env.mkdir
      ask env.writeManifest) :=
    .bind (keeps_ask _) fun _ => keeps_ask _
  unfold addPlugin
  rw [← bind_assoc, ends_bind]
  apply (ready.ends addable).mono
  rintro result after ⟨foundedNow, newNow, backedNow⟩
  cases result with
  | error halt => exact foundedNow
  | ok value =>
    apply (.bind (keeps_emit _) fun _ => .pure _ : KeepsPlugins Founded _).ends
    have others : after.plugins.filter (fun other => other.manifest.name ≠ manifest.name) =
        after.plugins :=
      filter_eq_self.mpr fun other member => decide_eq_true (newNow other member)
    dsimp only
    rw [others]
    exact foundedNow.install newNow backedNow

theorem keeps_installPlugin (request : PluginInstallRequest) (gentle : request.force = false) :
    KeepsPlugins Founded (installPlugin env request) := by
  apply keeps_withLock
  intro state founded
  change Ends (fun _ after => Founded after.plugins) _ state
  rw [ends_bind]
  apply (ends_validatePlugin env request state).mono
  rintro result after ⟨sameRegistry, -, validation⟩
  have samePlugins : after.plugins = state.plugins := congrArg Registry.plugins sameRegistry
  have foundedAfter : Founded after.plugins := samePlugins ▸ founded
  cases loaded : loadedManifest env state.plugins request state.calls with
  | none =>
    rw [loaded] at validation
    rcases validation with rfl | ⟨validation, rfl, invalid⟩
    · exact foundedAfter
    · rw [andThen_ok, if_neg (Bool.eq_false_iff.mp invalid)]
      exact foundedAfter
  | some manifest =>
    rw [loaded] at validation
    rw [validation, andThen_ok, ends_ite]
    by_cases valid : (validateManifest state.plugins request manifest).valid = true
    · rw [if_pos valid, validateManifest_manifest]
      rw [validateManifest_valid_iff] at valid
      dsimp only
      unfold uninstallExisting
      rw [bind_assoc, ends_bind, ends_get, andThen_ok, gentle, samePlugins]
      cases absent : getPlugin state.plugins manifest.name with
      | some existing => exact foundedAfter
      | none =>
        apply ends_addPlugin request
        rw [samePlugins]
        exact ⟨founded, getPlugin_eq_none_iff.mp absent, backed_of_validationErrors valid⟩
    · rw [if_neg valid]
      exact foundedAfter

end

section

variable {plugins : List PluginInstance}

theorem mem_requirements_iff {name required : String} : required ∈ requirements plugins name ↔
      ∃ plugin, getPlugin plugins name = some plugin ∧
        ∃ dep ∈ plugin.manifest.dependencies, dep.type = .required ∧ dep.name = required := by
  unfold requirements
  cases getPlugin plugins name with
  | none => simp
  | some plugin => simp [and_assoc]

theorem Founded.topological (founded : Founded plugins) :
    Dependencies.Topological (requirements plugins) (names plugins) := by
  induction founded with
  | nil => exact .nil
  | @install plugins last founded new backed ih =>
    have earlier (name : String) (member : name ∈ names plugins) :
        requirements (plugins ++ [last]) name = requirements plugins name := by
      rcases mem_map.mp member with ⟨plugin, listed, named⟩
      unfold requirements getPlugin
      rw [find?_append]
      cases found : plugins.find? fun plugin => plugin.manifest.name = name with
      | none => exact absurd named (by simpa using find?_eq_none.mp found plugin listed)
      | some other => rfl
    have behind : names (plugins ++ [last]) = names plugins ++ [last.manifest.name] := by
      simp [names]
    rw [behind]
    apply (ih.congr earlier).append
    intro name member required edge
    rw [mem_singleton] at member
    rw [mem_requirements_iff] at edge
    rcases edge with ⟨plugin, found, dep, listed, type, rfl⟩
    have itself : plugin = last := by
      rcases mem_of_getPlugin found with ⟨registered, named⟩
      rcases mem_append.mp registered with old | itself
      · exact absurd (named.trans member) (new plugin old)
      · exact mem_singleton.mp itself
    rw [itself] at listed
    rcases backed dep listed type with ⟨other, registered, same, -⟩
    exact mem_map.mpr ⟨other, registered, same⟩

/-- No plugin requires itself, not even through others. -/
theorem Founded.acyclic (founded : Founded plugins) (name : String) :
    ¬ Relation.TransGen (Dependencies.DependsOn (requirements plugins)) name name := by
  by_cases installed : name ∈ names plugins
  · exact (founded.topological.resolvable (fun _ member => member) name installed).acyclic
  · intro circle
    rcases Relation.TransGen.head'_iff.mp circle with ⟨next, edge, -⟩
    rcases mem_requirements_iff.mp edge with ⟨plugin, found, -⟩
    rcases mem_of_getPlugin found with ⟨listed, named⟩
    exact installed (mem_map.mpr ⟨plugin, listed, named⟩)

end

/-- The operation neither replaces nor removes a plugin by force. -/
def Operation.Gentle : Operation → Prop
  | .install request => request.force = false
  | .uninstall _ force => force = false
  | _ => True

def operate (registry : Registry) (action : Environment × Operation) : Registry :=
  (finalState (perform action.1 action.2 registry.begin)).toRegistry

theorem Founded.operate {registry : Registry} (founded : Founded registry.plugins)
    (action : Environment × Operation) (gentle : action.2.Gentle) :
    Founded (operate registry action).plugins := by
  rcases action with ⟨env, operation⟩
  have keeps : KeepsPlugins Founded (perform env operation) := by
    cases operation with
    | install request => exact (keeps_installPlugin request gentle).discard
    | uninstall name force =>
      obtain rfl : force = false := gentle
      exact (keeps_uninstallPlugin name).discard
    | start name => exact (keeps_startPlugin name).discard
    | stop name => exact (keeps_stopPlugin name).discard
    | restart name => exact (keeps_restartPlugin name).discard
    | update name config => exact (keeps_updatePlugin name config).discard
    | setConfig name values => exact (keeps_setConfig name values).discard
    | shutdown => exact keeps_shutdown
  exact keeps registry.begin founded

/-- Whatever is done without force, and however it ends: the names of the installed plugins
are distinct, what they require is installed at the required version, and none requires
itself through others. -/
theorem plugins_closed (actions : List (Environment × Operation))
    (gentle : ∀ action ∈ actions, action.2.Gentle) :
    (names (run operate {} actions).plugins).Nodup ∧
      (∀ plugin ∈ (run operate {} actions).plugins,
        Backed (run operate {} actions).plugins plugin.manifest) ∧
      ∀ name, ¬ Relation.TransGen
        (Dependencies.DependsOn (requirements (run operate {} actions).plugins)) name name := by
  have founded : Founded (run operate {} actions).plugins := by
    have along : Along operate (fun _ action => action.2.Gentle) {} actions :=
      .of_forall_mem (fun action member _ => gentle action member) _
    have preserved (registry : Registry) (action : Environment × Operation)
        (founded : Founded registry.plugins) (gentle : action.2.Gentle) :
        Founded (operate registry action).plugins :=
      founded.operate action gentle
    exact along.invariant preserved .nil
  exact ⟨founded.nodup, founded.backed, founded.acyclic⟩

/-- Two plugins are installed, one behind the other, and the first cannot be removed. -/
def sampleActions : List (Environment × Operation) :=
  [(sampleEnvironment, .install { reference := "/tmp/notes", source := "local" }),
    ({ sampleEnvironment with
        loadManifestFromLocal := fun _ _ => .ok (some
          { name := "search", version := "2.0"
            dependencies := [{ name := "notes", version := "1.0" }] }) },
      .install { reference := "/tmp/search", source := "local" }),
    (sampleEnvironment, .uninstall "notes" false)]

example : names (run operate {} sampleActions).plugins = ["notes", "search"] := by
  decide +kernel

theorem sampleActions_closed : (names (run operate {} sampleActions).plugins).Nodup ∧
      (∀ plugin ∈ (run operate {} sampleActions).plugins,
        Backed (run operate {} sampleActions).plugins plugin.manifest) ∧
      ∀ name, ¬ Relation.TransGen
        (Dependencies.DependsOn (requirements (run operate {} sampleActions).plugins))
        name name := by
  apply plugins_closed
  intro action member
  simp only [sampleActions, mem_cons, not_mem_nil, or_false] at member
  rcases member with rfl | rfl | rfl
  · rfl
  · rfl
  · rfl

end AgenticOS.Plugins
