import AgenticOS.Plugins.Registry

/-!
# Which operations wait for themselves

An operation that runs alone can only wait for a lock that it holds itself. Operations call
one another: what is called under a lock must not ask for it again. The judgement `Safe` is
about programs that never do, given the locks that are held, and that give back what they
take; it is composed along the program.
-/

namespace AgenticOS.Plugins

open Transition Program List

section

variable {α β : Type}

/-- The program has ended in a wait for a lock that it holds. -/
def Blocked (result : Except Halt α) : Prop :=
  ∃ name, result = .error (.blocked name)

@[simp]
theorem not_blocked_ok (value : α) : ¬ Blocked (.ok value : Except Halt α) := by
  rintro ⟨name, impossible⟩
  cases impossible

@[simp]
theorem not_blocked_raised (raised : Raised) :
    ¬ Blocked (.error (.raised raised) : Except Halt α) := by
  rintro ⟨name, impossible⟩
  cases impossible

@[simp]
theorem blocked_error (name : String) : Blocked (.error (.blocked name) : Except Halt α) :=
  ⟨name, rfl⟩

/-- From this state the program comes to wait for a lock that it holds. -/
def Blocks (program : Program α) (state : Execution) : Prop :=
  Ends (fun result _ => Blocked result) program state

/-- While these locks are held, the program does not wait for one that it holds; it gives
back what it takes. -/
def Safe (held : List String) (program : Program α) : Prop :=
  ∀ state, state.held = held →
    Ends (fun result after => ¬ Blocked result ∧ after.held = held) program state

variable {held : List String} {program : Program α} {state : Execution}

theorem Safe.not_blocks (safe : Safe held program) (holds : state.held = held) :
    ¬ Blocks program state :=
  (safe state holds).1

namespace Safe

theorem pure (value : α) : Safe held (Pure.pure value) :=
  fun _ holds => ⟨not_blocked_ok value, holds⟩

theorem raise (message : String) : Safe held (raise message : Program α) :=
  fun _ holds => ⟨not_blocked_raised _, holds⟩

theorem get : Safe held (get : Program Execution) :=
  fun _ holds => ⟨not_blocked_ok _, holds⟩

theorem modify {change : Execution → Execution}
    (sameLocks : ∀ state, (change state).held = state.held) :
    Safe held (modify change : Program PUnit) :=
  fun state holds => ⟨not_blocked_ok _, (sameLocks state).trans holds⟩

theorem bind {first : Program β} {next : β → Program α} (safe : Safe held first)
    (safeNext : ∀ value, Safe held (next value)) : Safe held (first >>= next) := by
  intro state holds
  rw [ends_bind]
  apply (safe state holds).mono
  rintro result after ⟨free, holdsAfter⟩
  cases result with
  | ok value => exact safeNext value after holdsAfter
  | error halt => exact ⟨fun ⟨name, same⟩ => free ⟨name, congrArg _ (Except.error.inj same)⟩,
      holdsAfter⟩

theorem discard (safe : Safe held program) : Safe held (discard program) :=
  .bind safe fun _ => .pure _

theorem ite {condition : Prop} [Decidable condition] {other : Program α}
    (ofTrue : condition → Safe held program) (ofFalse : ¬ condition → Safe held other) :
    Safe held (if condition then program else other) := by
  by_cases holds : condition
  · rw [if_pos holds]
    exact ofTrue holds
  · rw [if_neg holds]
    exact ofFalse holds

theorem observe (answer : Nat → α) : Safe held (observe answer) :=
  fun _ holds => ⟨not_blocked_ok _, holds⟩

theorem ask (answer : Nat → Except Raised α) : Safe held (ask answer) := by
  apply Safe.bind (.observe answer)
  intro result
  cases result with
  | ok value => exact .pure value
  | error raised => exact fun _ holds => ⟨not_blocked_raised raised, holds⟩

theorem attempting {handler : String → Program α} (safe : Safe held program)
    (safeHandler : ∀ message, Safe held (handler message)) :
    Safe held (attempting program handler) := by
  intro state holds
  unfold Program.attempting
  rw [ends_tryCatch]
  apply (safe state holds).mono
  rintro result after ⟨free, holdsAfter⟩
  cases result with
  | ok value => exact ⟨free, holdsAfter⟩
  | error halt =>
    cases halt with
    | blocked name => exact absurd (blocked_error name) free
    | raised raised =>
      cases raised with
      | exception message => exact safeHandler message after holdsAfter
      | cancelled => exact ⟨not_blocked_raised _, holdsAfter⟩

theorem withLock {name : String} (new : name ∉ held) (safe : Safe (name :: held) program) :
    Safe held (withLock name program) := by
  intro state holds
  unfold Program.withLock
  rw [ends_bind, ends_get, andThen_ok, ends_ite, if_neg (holds ▸ new), ends_bind]
  unfold acquire
  rw [ends_modify, andThen_ok, ends_bind, ends_tryCatch]
  have taken : name :: state.held = name :: held := congrArg _ holds
  apply (safe _ taken).mono
  rintro result after ⟨free, holdsAfter⟩
  have givenBack : after.held.erase name = held := by rw [holdsAfter, erase_cons_head]
  cases result with
  | ok value => exact ⟨not_blocked_ok value, givenBack⟩
  | error halt =>
    cases halt with
    | blocked other => exact absurd (blocked_error other) free
    | raised raised => exact ⟨not_blocked_raised raised, givenBack⟩

end Safe

theorem blocks_bind_of_blocks {next : α → Program β} (blocks : Blocks program state) :
    Blocks (program >>= next) state := by
  unfold Blocks
  rw [ends_bind]
  apply blocks.mono
  rintro result after ⟨name, rfl⟩
  exact blocked_error name

theorem blocks_bind_of_free {next : α → Program β}
    (free : ∀ value after, ¬ Blocks (next value) after) :
    Blocks (program >>= next) state ↔ Blocks program state := by
  unfold Blocks
  rw [ends_bind]
  unfold Ends
  cases ending (program state) with
  | ok value => exact iff_of_false (free value _) (not_blocked_ok value)
  | error halt => simp [Blocked]

theorem blocks_discard : Blocks (discard program) state ↔ Blocks program state := by
  unfold Blocks
  rw [ends_discard]
  unfold Ends
  cases ending (program state) with
  | ok value => simp
  | error halt => simp [Blocked]

theorem blocks_withLock_of_mem {name : String} (taken : name ∈ state.held) :
    Blocks (withLock name program) state := by
  unfold Blocks withLock
  rw [ends_bind, ends_get, andThen_ok, ends_ite, if_pos taken]
  exact blocked_error name

theorem blocks_withLock {name : String} (new : name ∉ state.held) :
    Blocks (withLock name program) state ↔
      Blocks program { state with held := name :: state.held } := by
  unfold Blocks withLock
  rw [ends_bind, ends_get, andThen_ok, ends_ite, if_neg new, ends_bind]
  unfold acquire
  rw [ends_modify, andThen_ok, ends_bind, ends_tryCatch]
  unfold Ends
  cases ending (program { state with held := name :: state.held }) with
  | ok value => exact iff_of_false (not_blocked_ok _) (not_blocked_ok _)
  | error halt =>
    cases halt with
    | blocked other => exact iff_of_true (blocked_error other) (blocked_error other)
    | raised raised => exact iff_of_false (not_blocked_raised _) (not_blocked_raised _)

end

section

variable (env : Environment) {held : List String}

theorem safe_emit (topic : Topic) : Safe held (emit env topic) :=
  .bind (.ask _) fun _ => .modify fun _ => rfl

theorem safe_updateInstance (plugin : PluginInstance) : Safe held (updateInstance plugin) :=
  .modify fun _ => rfl

theorem safe_endProcess (name : String) : Safe held (endProcess env name) := by
  refine .bind .get fun state => .ite ?_ ?_
  · intro _
    exact .bind (.modify fun _ => rfl) fun _ => .ask _
  · intro _
    exact .pure _

theorem safe_failing {α : Type} {program : Program α} (safe : Safe held program)
    (failed : String → PluginInstance) :
    Safe held (attempting program fun message => do
      updateInstance (failed message)
      emit env .pluginFailed
      raise message) := by
  apply Safe.attempting safe
  intro message
  apply Safe.bind (safe_updateInstance _)
  intro _
  exact .bind (safe_emit env _) fun _ => .raise message

variable {name : String}

theorem safe_found {α : Type} {message : String} {next : PluginInstance → Program α}
    (safeNext : ∀ plugin, Safe held (next plugin)) :
    Safe held (do
      match getPlugin (← get).plugins name with
      | none => raise message
      | some plugin => next plugin) := by
  refine .bind .get fun state => ?_
  cases getPlugin state.plugins name with
  | none => exact .raise message
  | some plugin => exact safeNext plugin

theorem safe_startPlugin (new : name ∉ held) : Safe held (startPlugin env name) := by
  apply Safe.withLock new
  refine safe_found fun plugin => ?_
  refine .ite (fun _ => .pure _) fun _ => ?_
  apply Safe.bind (safe_updateInstance _)
  intro _
  apply Safe.bind (safe_emit env _)
  intro _
  apply safe_failing env
  apply Safe.bind (.observe _)
  intro pid
  refine .bind (.modify fun _ => rfl) fun _ => ?_
  apply Safe.bind (safe_updateInstance _)
  intro _
  exact .bind (safe_emit env _) fun _ => .pure _

theorem safe_stopPlugin (new : name ∉ held) : Safe held (stopPlugin env name) := by
  apply Safe.withLock new
  refine safe_found fun plugin => ?_
  refine .ite (fun _ => .pure _) fun _ => ?_
  apply Safe.bind (safe_updateInstance _)
  intro _
  apply safe_failing env
  apply Safe.bind (safe_endProcess env name)
  intro _
  apply Safe.bind (safe_updateInstance _)
  intro _
  exact .bind (safe_emit env _) fun _ => .pure _

theorem safe_restartPlugin (new : name ∉ held) : Safe held (restartPlugin env name) := by
  refine safe_found fun plugin => ?_
  refine .ite (fun _ => ?_) fun _ => safe_startPlugin env new
  exact .bind (safe_stopPlugin env new).discard fun _ =>
    safe_startPlugin env new

theorem safe_setConfig (name : String) (values : Config) :
    Safe held (setConfig env name values) := by
  refine safe_found fun plugin => ?_
  apply Safe.bind (safe_updateInstance _)
  intro _
  exact .bind (safe_emit env _) fun _ => .pure _

theorem safe_updatePlugin (new : name ∉ held) (config : Option Config) :
    Safe held (updatePlugin env name config) := by
  apply Safe.withLock new
  refine safe_found fun plugin => ?_
  cases config with
  | none => exact .pure _
  | some values =>
    apply Safe.bind (safe_setConfig env name values).discard
    intro _
    exact .bind .get fun _ => .pure _

theorem safe_stopAll (plugins : List PluginInstance) : Safe [] (stopAll env plugins) := by
  induction plugins with
  | nil => exact .pure _
  | cons plugin plugins ih =>
    refine .bind ?_ fun _ => ih
    apply Safe.attempting
    · exact (safe_stopPlugin env not_mem_nil).discard
    · exact fun _ => .pure _

theorem safe_shutdown : Safe [] (shutdown env) :=
  .bind .get fun _ => safe_stopAll env _

theorem safe_checkDependents (name : String) (force : Bool) :
    Safe held (checkDependents name force) :=
  .bind .get fun _ => .ite (fun _ => .raise _) fun _ => .pure _

variable {env}

/-- The removal of a plugin waits for itself where it is to stop the plugin first: the stop
asks for the lock again. -/
theorem blocks_uninstallPlugin (force : Bool) {state : Execution} (new : name ∉ state.held) :
    Blocks (uninstallPlugin env name force) state ↔
      ∃ plugin, getPlugin state.plugins name = some plugin ∧ plugin.Active ∧ force = true := by
  unfold uninstallPlugin
  rw [blocks_withLock new]
  unfold Blocks
  rw [ends_bind, ends_get, andThen_ok]
  cases getPlugin state.plugins name with
  | none =>
    apply iff_of_false
    · exact not_blocked_ok false
    · rintro ⟨plugin, impossible, -⟩
      cases impossible
  | some plugin =>
    by_cases stops : plugin.Active ∧ force = true
    · apply iff_of_true _ ⟨plugin, rfl, stops⟩
      apply blocks_bind_of_blocks
      unfold stopActive
      rw [if_pos stops.1, if_pos stops.2, blocks_discard]
      exact blocks_withLock_of_mem mem_cons_self
    · apply iff_of_false
      · apply Safe.not_blocks _ rfl
        refine .bind ?_ fun _ => ?_
        · refine .ite (fun active => ?_) fun _ => .pure _
          rw [if_neg fun forced => stops ⟨active, forced⟩]
          exact .raise _
        · apply Safe.bind (safe_checkDependents name force)
          intro _
          apply Safe.bind (safe_endProcess env name)
          intro _
          refine .bind (.modify fun _ => rfl) fun _ => ?_
          exact .bind (safe_emit env _) fun _ => .pure _
      · rintro ⟨other, same, stopsOther⟩
        cases same
        exact stops stopsOther

theorem safe_addPlugin (request : PluginInstallRequest) (manifest : PluginManifest) :
    Safe held (addPlugin env request manifest) := by
  apply Safe.bind (.ask _)
  intro _
  apply Safe.bind (.ask _)
  intro _
  refine .bind (.modify fun _ => rfl) fun _ => ?_
  exact .bind (safe_emit env _) fun _ => .pure _

/-- The removal that makes room waits for itself under the lock of the same plugin, or where
the plugin is to be stopped first. -/
theorem blocks_uninstallExisting (force : Bool) (state : Execution) :
    Blocks (uninstallExisting env name force) state ↔
      ∃ existing, getPlugin state.plugins name = some existing ∧ force = true ∧
        (name ∈ state.held ∨ existing.Active) := by
  unfold uninstallExisting Blocks
  rw [ends_bind, ends_get, andThen_ok]
  cases found : getPlugin state.plugins name with
  | none =>
    apply iff_of_false
    · exact not_blocked_ok _
    · rintro ⟨existing, impossible, -⟩
      cases impossible
  | some existing =>
    by_cases forced : force = true
    · rw [if_pos forced]
      change Blocks (discard (uninstallPlugin env name true)) state ↔ _
      rw [blocks_discard]
      by_cases taken : name ∈ state.held
      · exact iff_of_true (blocks_withLock_of_mem taken) ⟨existing, rfl, forced, .inl taken⟩
      · rw [blocks_uninstallPlugin true taken, found]
        simp [forced, taken]
    · rw [if_neg forced]
      apply iff_of_false
      · exact not_blocked_raised _
      · rintro ⟨_, -, impossible, -⟩
        exact forced impossible

end

/-! ## The condition -/

/-- An operation waits for itself: the installation of a plugin that is to replace one under
the lock that it holds, or one that is to be stopped first; and a removal that is to stop the
plugin first. -/
def SelfLocks (env : Environment) (registry : Registry) : Operation → Prop
  | .install request =>
    ∃ manifest existing,
      loadedManifest env registry.plugins request 0 = some manifest ∧
      validationErrors registry.plugins request manifest = [] ∧
      getPlugin registry.plugins manifest.name = some existing ∧ request.force = true ∧
      (manifest.name = request.reference ∨ existing.Active)
  | .uninstall name force =>
    ∃ plugin, getPlugin registry.plugins name = some plugin ∧ plugin.Active ∧ force = true
  | _ => False

theorem blocks_installPlugin (env : Environment) (registry : Registry)
    (request : PluginInstallRequest) : Blocks (installPlugin env request) registry.begin ↔
      SelfLocks env registry (.install request) := by
  unfold installPlugin
  rw [blocks_withLock not_mem_nil]
  unfold Blocks
  rw [ends_bind]
  have validated := ends_validatePlugin env request
    { registry.begin with held := request.reference :: registry.begin.held }
  unfold Ends at validated ⊢
  rcases validated with ⟨sameRegistry, sameLocks, validation⟩
  generalize finalState _ = after at sameRegistry sameLocks ⊢
  generalize ending _ = result at validation ⊢
  have samePlugins : after.plugins = registry.plugins := congrArg Registry.plugins sameRegistry
  dsimp only [SelfLocks]
  dsimp only [Registry.begin] at validation sameLocks
  cases loaded : loadedManifest env registry.plugins request 0 with
  | none =>
    rw [loaded] at validation
    apply iff_of_false
    · rcases validation with rfl | ⟨validation, rfl, invalid⟩
      · exact not_blocked_raised _
      · rw [andThen_ok, if_neg (Bool.eq_false_iff.mp invalid)]
        exact not_blocked_raised _
    · rintro ⟨manifest, existing, impossible, -⟩
      cases impossible
  | some manifest =>
    rw [loaded] at validation
    rw [validation, andThen_ok]
    by_cases valid : (validateManifest registry.plugins request manifest).valid = true
    · rw [if_pos valid]
      rw [validateManifest_valid_iff] at valid
      change Blocks _ after ↔ _
      rw [validateManifest_manifest]
      rw [blocks_bind_of_free fun _ later => (safe_addPlugin request manifest).not_blocks rfl,
        blocks_uninstallExisting, samePlugins, sameLocks]
      simp [valid]
    · rw [if_neg valid]
      rw [validateManifest_valid_iff] at valid
      apply iff_of_false
      · exact not_blocked_raised _
      · rintro ⟨other, existing, same, none, -⟩
        cases same
        exact valid none

/-- An operation that runs alone waits for itself in exactly these cases; in all others it
returns or raises. -/
theorem perform_blocks_iff (env : Environment) (registry : Registry) (operation : Operation) :
    Blocks (perform env operation) registry.begin ↔
      SelfLocks env registry operation := by
  have free {α : Type} {program : Program α} (safe : Safe [] program) :
      Blocks (discard program) registry.begin ↔ False :=
    iff_of_false (safe.discard.not_blocks rfl) id
  cases operation with
  | install request => exact blocks_discard.trans (blocks_installPlugin env registry request)
  | uninstall name force => exact blocks_discard.trans (blocks_uninstallPlugin force not_mem_nil)
  | start name => exact free (safe_startPlugin env not_mem_nil)
  | stop name => exact free (safe_stopPlugin env not_mem_nil)
  | restart name => exact free (safe_restartPlugin env not_mem_nil)
  | update name config => exact free (safe_updatePlugin env not_mem_nil config)
  | setConfig name values => exact free (safe_setConfig env name values)
  | shutdown => exact iff_of_false ((safe_shutdown env).not_blocks rfl) id

/-- An environment in which every call returns. -/
def sampleEnvironment : Environment where
  pluginDir name := "plugins/" ++ name
  loadManifestFromLocal _ _ := .ok (some { name := "notes", version := "1.0" })
  mkdir _ := .ok ()
  writeManifest _ := .ok ()
  publish _ := .ok ()
  pause _ := .ok ()
  pid := id

def sampleRegistry (status : PluginStatus) : Registry :=
  let notes : PluginInstance :=
    { manifest := { name := "notes", version := "1.0" }
      status
      path := "plugins/notes"
      config := .empty }
  { plugins := [notes] }

/-- A forced removal of a running plugin waits for itself, and so do a forced installation
over a running plugin and a forced installation from the registry. -/
theorem notes_blocked :
    Blocks (perform sampleEnvironment (.uninstall "notes" true))
        (sampleRegistry .running).begin ∧
      Blocks (perform sampleEnvironment
        (.install { reference := "/tmp/notes", source := "local", force := true }))
        (sampleRegistry .running).begin ∧
      Blocks (perform sampleEnvironment (.install { reference := "notes", force := true }))
        (sampleRegistry .stopped).begin :=
  ⟨⟨"notes", rfl⟩, ⟨"notes", rfl⟩, ⟨"notes", rfl⟩⟩

end AgenticOS.Plugins
