import AgenticOS.Transition.Run

/-!
# Downloading an update

A download goes on behind what earlier attempts have left in the file, and asks the server for the
rest. What a response carries is written behind the file whether it is the rest or not, and the
end of a body is taken for its whole.

The network is modelled by its responses. The updates are of one version, so that they have one
file.
-/

namespace AgenticOS.Desktop

open Transition List

inductive UpdateStatus
  | idle | downloading | verifying | ready | failed
  deriving DecidableEq

structure UpdateManifest where
  checksumSha256 : String := ""

/-- How a streaming attempt ends. -/
inductive Reply
  | returned (success : Bool)
  | raised

variable {β : Type} {file : Option (List β)} {resource : List β}

/-- What a request meets with: an error, the status 416, or a body. The body is read in chunks;
behind the last one there is nothing more, or reading fails. -/
inductive Response (β : Type)
  | failed
  | unsatisfiable
  | body (chunks : List (List β)) (fails : Bool)

def writeChunks (cancelled : Nat → Bool) (fails : Bool) :
    Nat → List (List β) → List β → Reply × List β
  | number, [], file =>
    (if cancelled number then .returned false else if fails then .raised else .returned true, file)
  | number, chunk :: rest, file =>
    if cancelled number then (.returned false, file)
    else if chunk.isEmpty then (.returned true, file)
    else writeChunks cancelled fails (number + 1) rest (file ++ chunk)

/-- A streaming attempt. The second argument says before which chunk the download is cancelled. -/
def streamDownload (file : Option (List β)) (cancelled : Nat → Bool) :
    Response β → Reply × Option (List β)
  | .failed => (.raised, file)
  | .unsatisfiable => if (file.getD []).isEmpty then (.raised, file) else (.returned true, file)
  | .body chunks fails =>
    let (reply, written) := writeChunks cancelled fails 0 chunks (file.getD [])
    (reply, some written)

structure Attempt (β : Type) where
  cancelledBefore : Bool := false
  response : Response β
  cancelled : Nat → Bool := fun _ => false

/-- Try until an attempt succeeds. There is no answer if the download is cancelled. -/
def tryAll : Option (List β) → List (Attempt β) → Option Bool × Option (List β)
  | file, [] => (some false, file)
  | file, attempt :: rest =>
    if attempt.cancelledBefore then (none, file)
    else
      match streamDownload file attempt.cancelled attempt.response with
      | (.returned true, file) => (some true, file)
      | (_, file) => tryAll file rest

structure AutoUpdateManager (β : Type) where
  file : Option (List β) := none
  status : UpdateStatus := .idle
  pendingUpdate : Option UpdateManifest := none

structure Call (β : Type) where
  manifest : UpdateManifest := {}
  attempts : List (Attempt β)
  cancelledAfter : Bool := false

def downloadUpdate (sha256 : List β → String) (lower : String → String)
    (manager : AutoUpdateManager β) (call : Call β) : Bool × AutoUpdateManager β :=
  match tryAll manager.file call.attempts with
  | (none, file) => (false, { manager with file, status := .idle })
  | (some success, file) =>
    if success = false ∨ call.cancelledAfter then (false, { manager with file, status := .failed })
    else if call.manifest.checksumSha256 ≠ "" ∧
        lower (sha256 (file.getD [])) ≠ lower call.manifest.checksumSha256 then
      (false, { manager with file, status := .failed })
    else (true, { file, status := .ready, pendingUpdate := some call.manifest })

/-- What a server may answer that serves the resource: all of it or, to a request for the rest, the
rest, as far as the connection carries it; or that there is no rest. -/
def Conforms (resource : List β) (file : Option (List β)) : Response β → Prop
  | .failed => True
  | .unsatisfiable => file.getD [] ≠ [] ∧ resource.length ≤ (file.getD []).length
  | .body chunks _ => [] ∉ chunks ∧
      (chunks.flatten <+: resource ∨
        file.getD [] ≠ [] ∧ chunks.flatten <+: resource.drop (file.getD []).length)

/-- A body is the rest of the resource, and where it is cut off reading fails. -/
def Resumes (resource : List β) (file : Option (List β)) : Response β → Prop
  | .failed | .unsatisfiable => True
  | .body chunks fails => chunks.flatten <+: resource.drop (file.getD []).length ∧
      (fails = false → chunks.flatten = resource.drop (file.getD []).length)

/-- A response that carries all that was asked for. -/
def Response.Complete : Response β → Prop
  | .failed => False
  | .unsatisfiable => True
  | .body _ fails => fails = false

def Meets (property : Option (List β) → Response β → Prop) :
    Option (List β) → List (Attempt β) → Prop
  | _, [] => True
  | file, attempt :: rest => attempt.cancelledBefore = true ∨ property file attempt.response ∧
      ((streamDownload file attempt.cancelled attempt.response).1 = .returned true ∨
        Meets property (streamDownload file attempt.cancelled attempt.response).2 rest)

def Fair (resource : List β) (file : Option (List β)) (response : Response β) : Prop :=
  Conforms resource file response ∧ Resumes resource file response

/-- Where the download reports success, the file is the resource. -/
def Intact (resource : List β) (manager : AutoUpdateManager β) (call : Call β) : Prop :=
  (tryAll manager.file call.attempts).1 = some true →
    (tryAll manager.file call.attempts).2 = some resource

/-- A call succeeds whose first attempt is not cut off, if its checksum is that of the resource. -/
def Recoverable (sha256 : List β → String) (lower : String → String) (resource : List β)
    (manager : AutoUpdateManager β) : Prop :=
  ∀ (manifest : UpdateManifest) (response : Response β) (rest : List (Attempt β)),
    Fair resource manager.file response → response.Complete →
    (manifest.checksumSha256 = "" ∨ lower (sha256 resource) = lower manifest.checksumSha256) →
      downloadUpdate sha256 lower manager { manifest, attempts := { response } :: rest } =
        (true, ⟨some resource, .ready, some manifest⟩)

theorem writeChunks_spec (cancelled : Nat → Bool) (fails : Bool) (number : Nat)
    {chunks : List (List β)} (full : [] ∉ chunks) (written : List β) :
    ∃ front, (writeChunks cancelled fails number chunks written).2 = written ++ front ∧
      front <+: chunks.flatten ∧
      ((writeChunks cancelled fails number chunks written).1 = .returned true →
        fails = false ∧ front = chunks.flatten) ∧
      (fails = false → (∀ later, cancelled later = false) →
        (writeChunks cancelled fails number chunks written).1 = .returned true) := by
  induction chunks generalizing number written with
  | nil =>
    refine ⟨[], (append_nil _).symm, nil_prefix, fun returned => ?_, fun ends never => ?_⟩
    · rw [writeChunks] at returned
      cases fails with
      | false => exact ⟨rfl, rfl⟩
      | true => split at returned <;> simp at returned
    · rw [writeChunks, never, ends]
      rfl
  | cons chunk rest ih =>
    obtain ⟨nonempty, later⟩ := not_or.mp (mem_cons.not.mp full)
    rw [writeChunks]
    split
    next stops =>
      exact ⟨[], (append_nil _).symm, nil_prefix, nofun,
        fun _ never => absurd stops (by simp [never])⟩
    · rw [if_neg fun empty => nonempty (isEmpty_iff.mp empty).symm]
      obtain ⟨front, grown, inside, whole, ends⟩ := ih (number + 1) later (written ++ chunk)
      refine ⟨chunk ++ front, by rw [grown, append_assoc], ?_, fun returned => ?_, ends⟩
      · exact (prefix_append_right_inj chunk).mpr inside
      · obtain ⟨never, all⟩ := whole returned
        exact ⟨never, by rw [all, flatten_cons]⟩

variable {response : Response β}

theorem streamDownload_fair (fair : Fair resource file response) (cancelled : Nat → Bool)
    (before : file.getD [] <+: resource) :
    (streamDownload file cancelled response).2.getD [] <+: resource ∧
      ((streamDownload file cancelled response).1 = .returned true →
        (streamDownload file cancelled response).2 = some resource) ∧
      (response.Complete → (∀ number, cancelled number = false) →
        (streamDownload file cancelled response).1 = .returned true) := by
  obtain ⟨conforms, resumes⟩ := fair
  cases response with
  | failed => exact ⟨before, nofun, False.elim⟩
  | unsatisfiable =>
    obtain ⟨nonempty, long⟩ := conforms
    have whole := before.eq_of_length_le long
    rw [streamDownload, if_neg (by simpa using nonempty)]
    refine ⟨before, fun _ => ?_, fun _ _ => rfl⟩
    cases file with
    | none => exact absurd rfl nonempty
    | some bytes => exact congrArg some whole
  | body chunks fails =>
    obtain ⟨front, grown, inside, whole, ends⟩ :=
      writeChunks_spec cancelled fails 0 conforms.1 (file.getD [])
    obtain ⟨rest, split⟩ := before
    have behind : resource.drop (file.getD []).length = rest := by rw [← split, drop_left]
    rw [Resumes, behind] at resumes
    refine ⟨?_, fun returned => ?_, fun complete never => ends complete never⟩
    · change (writeChunks _ _ _ _ _).2 <+: resource
      rw [grown, ← split]
      exact (prefix_append_right_inj _).mpr (inside.trans resumes.1)
    · obtain ⟨never, all⟩ := whole returned
      change some (writeChunks _ _ _ _ _).2 = some resource
      rw [grown, all, resumes.2 never, split]

theorem tryAll_fair {attempts : List (Attempt β)} (fair : Meets (Fair resource) file attempts)
    (before : file.getD [] <+: resource) : (tryAll file attempts).2.getD [] <+: resource ∧
      ((tryAll file attempts).1 = some true → (tryAll file attempts).2 = some resource) := by
  induction attempts generalizing file with
  | nil => exact ⟨before, nofun⟩
  | cons attempt rest ih =>
    rw [tryAll]
    rcases fair with cancelled | ⟨fair, later⟩
    · rw [if_pos cancelled]
      exact ⟨before, nofun⟩
    · split
      · exact ⟨before, nofun⟩
      · obtain ⟨partly, whole, -⟩ := streamDownload_fair fair attempt.cancelled before
        split
        next after result =>
          rw [result] at whole partly
          exact ⟨partly, fun _ => whole rfl⟩
        next reply after notDone result =>
          rw [result] at later partly
          exact ih (later.resolve_left notDone) partly

theorem file_downloadUpdate (sha256 : List β → String) (lower : String → String)
    (manager : AutoUpdateManager β) (call : Call β) :
    (downloadUpdate sha256 lower manager call).2.file =
      (tryAll manager.file call.attempts).2 := by
  rw [downloadUpdate]
  rcases tryAll manager.file call.attempts with ⟨_ | success, file⟩
  · rfl
  · dsimp only
    split
    · rfl
    · split
      · rfl
      · rfl

/-- Where servers resume and connections that are cut off raise errors, every success leaves the
resource in the file, and nothing keeps a later call from succeeding. -/
theorem downloads_intact (sha256 : List β → String) (lower : String → String) (resource : List β)
    (calls : List (Call β))
    (fair : Along (fun manager call => (downloadUpdate sha256 lower manager call).2)
      (fun manager call => Meets (Fair resource) manager.file call.attempts) {} calls) :
    Along (fun manager call => (downloadUpdate sha256 lower manager call).2) (Intact resource) {}
        calls ∧
      Always (fun manager call => (downloadUpdate sha256 lower manager call).2)
        (Recoverable sha256 lower resource) {} calls := by
  have kept : ∀ (manager : AutoUpdateManager β) (call : Call β),
      manager.file.getD [] <+: resource → Meets (Fair resource) manager.file call.attempts →
        (downloadUpdate sha256 lower manager call).2.file.getD [] <+: resource := by
    intro manager call before fair
    rw [file_downloadUpdate]
    exact (tryAll_fair fair before).1
  refine ⟨fair.imp_of_invariant kept (fun manager call before fair => ?_) nil_prefix,
    fun done earlier => ?_⟩
  · exact (tryAll_fair fair before).2
  · have before := (fair.of_prefix earlier).invariant kept nil_prefix
    intro manifest response rest fair complete matching
    obtain ⟨-, whole, ends⟩ := streamDownload_fair fair (fun _ => false) before
    have returned := ends complete fun _ => rfl
    have answer : streamDownload _ (fun _ => false) response = (.returned true, some resource) :=
      Prod.ext returned (whole returned)
    rw [downloadUpdate, tryAll, if_neg Bool.false_ne_true, answer]
    dsimp only
    rw [if_neg (by simp), if_neg (by simpa using fun named => matching.resolve_left named)]

theorem downloads_intact_retried :
    Along (fun manager call => (downloadUpdate (fun _ => "a") id manager call).2)
        (Intact [1, 2, 3]) {}
        [{ attempts := [{ response := .body [[1, 2]] true }, { response := .body [[3]] false }] }] ∧
      Always (fun manager call => (downloadUpdate (fun _ => "a") id manager call).2)
        (Recoverable (fun _ => "a") id [1, 2, 3]) {}
        [{ attempts := [{ response := .body [[1, 2]] true },
          { response := .body [[3]] false }] }] :=
  downloads_intact (fun _ => "a") id [1, 2, 3] _
    ⟨.inr ⟨⟨⟨by decide, .inl (by decide)⟩, by decide, nofun⟩,
      .inr (.inr ⟨⟨⟨by decide, .inr ⟨by decide, by decide⟩⟩, by decide, fun _ => by decide⟩,
        .inl rfl⟩)⟩, trivial⟩

/-- A connection is closed behind two bytes, and a server does not resume: the download reports
success twice. From then on there is no rest to ask for, and the checksum never matches. -/
theorem not_intact_twice :
    let early : Attempt Nat := { response := .body [[1, 2]] false }
    let again : Attempt Nat := { response := .body [[1, 2, 3]] false }
    Conforms [1, 2, 3] none early.response ∧
      tryAll none [early] = (some true, some [1, 2]) ∧
      Conforms [1, 2, 3] (some [1, 2]) again.response ∧
      tryAll (some [1, 2]) [again] = (some true, some [1, 2, 1, 2, 3]) ∧
      Conforms [1, 2, 3] (some [1, 2, 1, 2, 3]) .unsatisfiable ∧
      downloadUpdate (fun bytes => if bytes = [1, 2, 3] then "a" else "b") id
          { file := some [1, 2, 1, 2, 3] }
          { manifest := { checksumSha256 := "a" }, attempts := [{ response := .unsatisfiable }] } =
        (false, ⟨some [1, 2, 1, 2, 3], .failed, none⟩) :=
  ⟨⟨by decide, .inl (by decide)⟩, rfl, ⟨by decide, .inl (by decide)⟩, rfl,
    ⟨by decide, by decide⟩, rfl⟩

end AgenticOS.Desktop
