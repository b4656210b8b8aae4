import Mathlib.Data.List.Sort
import Mathlib.Data.Rat.Floor
import OdooSemantic.Lib.Run

/-!
# Job reports against the start-up sweep

The process of an indexer job reports its state with `update_job`; `mark_dead_jobs` reads the
unfinished jobs, judges each and writes those whose process is gone.  Neither write looks at the
status that is stored.
-/

set_option autoImplicit false

namespace OdooSemantic.Registry.JobReports

open Lib.Run

inductive Status where
  | queued
  | running
  | done
  | error
  deriving DecidableEq

def Status.text : Status → String
  | .queued => "queued"
  | .running => "running"
  | .done => "done"
  | .error => "error"

def validStatuses : List Status := [.queued, .running, .done, .error]

def Status.ofText (text : String) : Option Status := validStatuses.find? (·.text == text)

def Status.Finished (status : Status) : Prop := status = .done ∨ status = .error

instance (status : Status) : Decidable status.Finished := inferInstanceAs (Decidable (_ ∨ _))

/-- A row of `indexer_jobs`; times are epoch seconds. -/
structure JobRow where
  id : Nat
  profileName : String
  status : Status
  pid : Option Nat
  startedAt : Option ℚ
  finishedAt : Option ℚ
  errorMsg : Option String
  createdAt : ℚ
  procStartTicks : Option Nat
  bootId : Option String

/-- The keyword arguments of `update_job`. -/
structure Fields where
  status : Option String
  pid : Option Nat
  startedAt : Option ℚ
  finishedAt : Option ℚ
  errorMsg : Option String
  procStartTicks : Option Nat
  bootId : Option String
  deriving DecidableEq

def noFields : Fields := ⟨none, none, none, none, none, none, none⟩

inductive JobError where
  | invalidStatus (text : String)
  | notFound (job : Nat)
  | noColumns

/-- Only fields that are not `None` are written. -/
def Fields.write (fields : Fields) (status : Option Status) (row : JobRow) : JobRow :=
  { row with
    status := status.getD row.status
    pid := fields.pid.or row.pid
    startedAt := fields.startedAt.or row.startedAt
    finishedAt := fields.finishedAt.or row.finishedAt
    errorMsg := fields.errorMsg.or row.errorMsg
    procStartTicks := fields.procStartTicks.or row.procStartTicks
    bootId := fields.bootId.or row.bootId }

/-- `_execute_update`: an UPDATE of no column is a syntax error. -/
def executeUpdate (jobs : List JobRow) (job : Nat) (fields : Fields) (status : Option Status) :
    Except JobError (List JobRow) :=
  if fields = noFields then .error .noColumns
  else if jobs.any (·.id == job) then
    .ok (jobs.map fun row => if row.id = job then fields.write status row else row)
  else .error (.notFound job)

/-- `update_job`; before migration 0004 the identity columns are left out. -/
def updateJob (migrated : Bool) (jobs : List JobRow) (job : Nat) (fields : Fields) :
    Except JobError (List JobRow) :=
  match fields.status.map fun text => (text, Status.ofText text) with
  | some (text, none) => .error (.invalidStatus text)
  | status =>
      if fields = noFields then .ok jobs
      else
        executeUpdate jobs job
          (if migrated then fields else { fields with procStartTicks := none, bootId := none })
          (status.bind (·.2))

/-- What `os.kill(pid, 0)` does. -/
inductive Signal where
  | delivered
  | notFound
  | notPermitted

/-- What the process table and `/proc` answer; `clockTicks` is `SC_CLK_TCK`. -/
structure Machine where
  kill : Nat → Signal
  bootId : Option String
  startTicks : Nat → Option Nat
  bootTime : Option ℚ
  clockTicks : ℚ

def Machine.startTime (machine : Machine) (pid : Nat) : Option ℚ :=
  match machine.bootTime, machine.startTicks pid with
  | some boot, some ticks => some (boot + ticks / machine.clockTicks)
  | _, _ => none

/-- `_START_SLACK_S`. -/
def startSlack : ℚ := 120

def notItsProcess (machine : Machine) (row : JobRow) (pid : Nat) : Option String :=
  match row.procStartTicks, row.bootId with
  | some ticks, some bootId =>
      if machine.bootId.any (· != bootId) then
        some (s!"PID {pid} is not the job's process: the machine rebooted " ++
          "after the job started (boot id differs)")
      else if (machine.startTicks pid).any (· != ticks) then
        some (s!"PID {pid} is not the job's process: its start ticks differ " ++
          "from the job's (pid reused)")
      else none
  | _, _ =>
      match row.startedAt with
      | none => none
      | some startedAt =>
          if machine.bootTime.any fun boot => decide (startedAt + startSlack < boot) then
            some (s!"PID {pid} is not the job's process: " ++
              "the machine booted after the job started")
          else if (machine.startTime pid).any fun begun =>
              decide (startedAt + startSlack < begun) then
            some (s!"PID {pid} is not the job's process: " ++
              "it started after the job did (pid reused)")
          else none

def stayedQueued (ttl : ℚ) (row : JobRow) (now : ℚ) : String :=
  let age := ⌊now - row.createdAt⌋
  let limit := ⌊ttl⌋
  let pid := (row.pid.map toString).getD "none"
  s!"Job stayed queued for {age}s (limit {limit}s, pid {pid}): " ++
    "the indexer process never started or died before reporting"

def jobStaleness (ttl : ℚ) (machine : Machine) (row : JobRow) (now : ℚ) : Option String :=
  if row.status = .queued ∧ row.startedAt = none ∧ ttl < now - row.createdAt then
    some (stayedQueued ttl row now)
  else
    match row.pid with
    | none => none
    | some pid =>
        match machine.kill pid with
        | .notFound => some s!"Process died unexpectedly (PID {pid} not found)"
        | _ => notItsProcess machine row pid

/-- Where a call of `mark_dead_jobs` stands; it counts the jobs it marked. -/
inductive Sweep where
  | idle
  | judging (rows : List JobRow) (now : ℚ) (count : Nat)
  | writing (job : Nat) (reason : String) (rows : List JobRow) (now : ℚ) (count : Nat)
  | finished (count : Nat)
  | aborted

/-- The table and the sweeps, with the results that processes recorded and the jobs that sweeps
wrote so far. -/
structure State where
  jobs : List JobRow
  sweep : Nat → Sweep
  reported : List (Nat × Status)
  buried : List Nat

inductive Event where
  | createJob (profileName : String) (now : ℚ)
  | report (job : Nat) (fields : Fields)
  | read (sweep : Nat) (now : ℚ)
  | judge (sweep : Nat) (machine : Machine)
  | write (sweep : Nat)
  | abort (sweep : Nat)

def State.setSweep (state : State) (sweep : Nat) (phase : Sweep) : State :=
  { state with sweep := Function.update state.sweep sweep phase }

/-- `WHERE status IN ('running', 'queued') ORDER BY created_at ASC`. -/
def unfinished (jobs : List JobRow) : List JobRow :=
  (jobs.filter fun row => !decide row.status.Finished).insertionSort
    fun first second => first.createdAt ≤ second.createdAt

def Fields.newStatus (fields : Fields) : Option Status := fields.status.bind Status.ofText

/-- What a sweep writes on a job. -/
def deadFields (reason : String) (now : ℚ) : Fields :=
  { noFields with
    status := some Status.error.text
    finishedAt := some now
    errorMsg := some (reason ++ " (found at Web UI startup)") }

section Steps
variable (ttl : ℚ) (migrated : Bool)

def report (state : State) (job : Nat) (fields : Fields) : State :=
  match updateJob migrated state.jobs job fields with
  | .error _ => state
  | .ok jobs =>
      { state with
        jobs
        reported := state.reported ++
          ((fields.newStatus.filter fun status => decide status.Finished).map (job, ·)).toList }

def step (state : State) : Event → State
  | .createJob profileName now =>
      { state with
        jobs := state.jobs ++ [⟨state.jobs.length + 1, profileName, .queued, none, none, none, none,
          now, none, none⟩] }
  | .report job fields => report migrated state job fields
  | .read sweep now =>
      match state.sweep sweep with
      | .idle => state.setSweep sweep (.judging (unfinished state.jobs) now 0)
      | _ => state
  | .judge sweep machine =>
      match state.sweep sweep with
      | .judging [] _ count => state.setSweep sweep (.finished count)
      | .judging (row :: rest) now count =>
          match jobStaleness ttl machine row now with
          | none => state.setSweep sweep (.judging rest now count)
          | some reason => state.setSweep sweep (.writing row.id reason rest now count)
      | _ => state
  | .write sweep =>
      match state.sweep sweep with
      | .writing job reason rest now count =>
          match updateJob migrated state.jobs job (deadFields reason now) with
          | .error _ => state.setSweep sweep .aborted
          | .ok jobs =>
              { state.setSweep sweep (.judging rest now (count + 1)) with
                jobs
                buried := state.buried ++ [job] }
      | _ => state
  | .abort sweep => state.setSweep sweep .aborted

/-- No job is created. -/
def resting : State := ⟨[], fun _ => .idle, [], []⟩

def statusIn (jobs : List JobRow) (job : Nat) : Option Status :=
  (jobs.find? (·.id == job)).map (·.status)

def statusOf (state : State) (job : Nat) : Option Status := statusIn state.jobs job

structure Final (start : State) (events : List Event) : Prop where
  stays : ∀ earlier middle later, events = earlier ++ (middle ++ later) → ∀ job (status : Status),
    status.Finished → statusOf (run (step ttl migrated) start earlier) job = some status →
      statusOf (run (step ttl migrated) start (earlier ++ middle)) job = some status
  spared : ∀ earlier middle later, events = earlier ++ (middle ++ later) → ∀ job status,
    (job, status) ∈ (run (step ttl migrated) start earlier).reported →
      (run (step ttl migrated) start (earlier ++ middle)).buried.count job =
        (run (step ttl migrated) start earlier).buried.count job

end Steps

/-- No status is reported after another result or, but for an error, after the job was written
dead; and no result was reported before a sweep writes the job. -/
def Timely (state : State) : Event → Prop
  | .report job fields => ∀ status, fields.newStatus = some status →
      (∀ old, (job, old) ∈ state.reported → old = status) ∧ (job ∈ state.buried → status = .error)
  | .write sweep => ∀ job reason rest now count,
      state.sweep sweep = .writing job reason rest now count → ∀ old, (job, old) ∉ state.reported
  | _ => True

section Updates
variable {migrated : Bool} {jobs next : List JobRow} {job : Nat} {fields : Fields}
  {status : Status}

theorem executeUpdate_status {columns : Fields} {set : Option Status}
    (updates : executeUpdate jobs job columns set = .ok next) (other : Nat) :
    statusIn next other =
      if other = job then (statusIn jobs other).map set.getD else statusIn jobs other := by
  unfold executeUpdate at updates
  split at updates
  · cases updates
  split at updates
  swap
  · cases updates
  cases updates
  have ids : (fun row : JobRow => row.id == other) ∘
      (fun row => if row.id = job then columns.write set row else row) =
      fun row => row.id == other := by
    funext row
    simp only [Function.comp_apply]
    split <;> rfl
  unfold statusIn
  rw [List.find?_map, ids]
  cases found : jobs.find? fun row => row.id == other with
  | none => simp
  | some row =>
      have isOther : row.id = other := by simpa using List.find?_some found
      by_cases same : other = job
      · simp [isOther, same, Fields.write]
      · simp [isOther, same]

theorem executeUpdate_listed {columns : Fields} {set : Option Status}
    (updates : executeUpdate jobs job columns set = .ok next) :
    jobs.any (·.id == job) = true := by
  by_contra absent
  unfold executeUpdate at updates
  rw [if_neg absent] at updates
  split at updates
  · cases updates
  · cases updates

theorem updateJob_status (updates : updateJob migrated jobs job fields = .ok next) (other : Nat) :
    statusIn next other =
      if other = job then (statusIn jobs other).map fields.newStatus.getD
      else statusIn jobs other := by
  unfold updateJob at updates
  unfold Fields.newStatus
  cases text : fields.status with
  | none =>
      simp only [text, Option.map_none, Option.bind_none] at updates ⊢
      split at updates
      · cases updates
        cases statusIn jobs other with
        | none | some status => simp
      · exact executeUpdate_status updates other
  | some text' =>
      cases valid : Status.ofText text' with
      | none =>
          simp only [text, Option.map_some, valid] at updates
          cases updates
      | some status =>
          simp only [text, Option.map_some, valid, Option.bind_some] at updates ⊢
          split at updates
          · rename_i empty
            rw [empty] at text
            cases text
          · exact executeUpdate_status updates other

variable (migrated) in
theorem updateJob_writes (sets : fields.newStatus = some status)
    (found : statusIn jobs job ≠ none) : ∃ next, updateJob migrated jobs job fields = .ok next := by
  unfold Fields.newStatus at sets
  obtain ⟨text, isText, valid⟩ := Option.bind_eq_some_iff.mp sets
  have some : fields ≠ noFields := by
    intro empty
    rw [empty] at isText
    cases isText
  have someLeft : (if migrated = true then fields
      else { fields with procStartTicks := none, bootId := none }) ≠ noFields := by
    intro empty
    have none : (if migrated = true then fields
        else { fields with procStartTicks := none, bootId := none }).status = none := by
      rw [empty]
      rfl
    split at none
    · rw [isText] at none
      cases none
    · rw [isText] at none
      cases none
  have listed : jobs.any (·.id == job) = true := by
    by_contra absent
    refine found ?_
    unfold statusIn
    rw [List.find?_eq_none.mpr fun row member isJob => absent
      (List.any_eq_true.mpr ⟨row, member, isJob⟩)]
    rfl
  have executes : ∀ set, ∃ next, executeUpdate jobs job (if migrated = true then fields
      else { fields with procStartTicks := none, bootId := none }) set = .ok next := by
    intro set
    rw [executeUpdate, if_neg someLeft, if_pos listed]
    exact ⟨_, rfl⟩
  unfold updateJob
  rw [isText, Option.map_some, valid]
  simp only [if_neg some]
  rw [← isText]
  exact executes _

theorem updateJob_found (updates : updateJob migrated jobs job fields = .ok next)
    (sets : fields.newStatus = some status) : ∃ old, statusIn jobs job = some old := by
  have listed : jobs.any (·.id == job) = true := by
    unfold Fields.newStatus at sets
    obtain ⟨text, isText, valid⟩ := Option.bind_eq_some_iff.mp sets
    unfold updateJob at updates
    rw [isText, Option.map_some, valid] at updates
    simp only at updates
    split at updates
    · rename_i empty
      rw [empty] at isText
      cases isText
    · exact executeUpdate_listed updates
  obtain ⟨row, found⟩ := Option.isSome_iff_exists.mp ((List.find?_isSome).mpr
    (List.any_eq_true.mp listed))
  exact ⟨row.status, by rw [statusIn, found, Option.map_some]⟩

theorem newStatus_dead (reason : String) (now : ℚ) :
    (deadFields reason now).newStatus = some .error := by
  change Status.ofText Status.error.text = some .error
  decide

end Updates

structure Inv (state : State) : Prop where
  results : ∀ job status, (job, status) ∈ state.reported → status.Finished
  reported : ∀ job status, (job, status) ∈ state.reported → statusOf state job = some status
  buried : ∀ job ∈ state.buried, statusOf state job = some .error
  source : ∀ job (status : Status), status.Finished → statusOf state job = some status →
    (job, status) ∈ state.reported ∨ status = .error ∧ job ∈ state.buried

structure Kept (before after : State) : Prop where
  stays : ∀ job (status : Status), status.Finished → statusOf before job = some status →
    statusOf after job = some status
  recorded : ∀ job status, (job, status) ∈ before.reported → (job, status) ∈ after.reported
  spared : ∀ job status, (job, status) ∈ before.reported →
    after.buried.count job = before.buried.count job

section Invariant
variable {ttl : ℚ} {migrated : Bool} {state : State} {job : Nat} {fields : Fields}

theorem Kept.refl (state : State) : Kept state state :=
  ⟨fun _ _ _ same => same, fun _ _ member => member, fun _ _ _ => rfl⟩

theorem Kept.trans {first second third : State} (one : Kept first second)
    (two : Kept second third) : Kept first third :=
  ⟨fun job status finished same => two.stays job status finished (one.stays job status finished same),
    fun job status member => two.recorded job status (one.recorded job status member),
    fun job status member => (two.spared job status (one.recorded job status member)).trans
      (one.spared job status member)⟩

theorem statusIn_append {jobs : List JobRow} {job : Nat} {status : Status}
    (found : statusIn jobs job = some status) (more : List JobRow) :
    statusIn (jobs ++ more) job = some status := by
  unfold statusIn at found ⊢
  obtain ⟨row, isRow, same⟩ := Option.map_eq_some_iff.mp found
  rw [List.find?_append, isRow, Option.some_or, Option.map_some, same]

theorem Inv.create (inv : Inv state) (row : JobRow) (isNew : row.status = .queued) :
    Inv { state with jobs := state.jobs ++ [row] } ∧
      Kept state { state with jobs := state.jobs ++ [row] } := by
  have stays : ∀ job status, statusOf state job = some status →
      statusOf { state with jobs := state.jobs ++ [row] } job = some status :=
    fun job status found => statusIn_append found [row]
  refine ⟨⟨inv.results, fun job status member => stays job status (inv.reported job status member),
    fun job member => stays job .error (inv.buried job member), ?_⟩,
    fun job status _ found => stays job status found, fun _ _ member => member, fun _ _ _ => rfl⟩
  intro job status finished found
  cases before : statusOf state job with
  | some old =>
      rw [stays job old before] at found
      cases found
      exact inv.source job status finished before
  | none =>
      -- the only row of this job is the new one
      exfalso
      have none : state.jobs.find? (·.id == job) = none := Option.map_eq_none_iff.mp before
      simp only [statusOf, statusIn, List.find?_append, none, Option.none_or] at found
      obtain ⟨only, isOnly, same⟩ := Option.map_eq_some_iff.mp found
      cases List.mem_singleton.mp (List.mem_of_find?_eq_some isOnly)
      rw [isNew] at same
      rw [← same] at finished
      rcases finished with isDone | isError
      · cases isDone
      · cases isError

theorem updateJob_none {jobs next : List JobRow}
    (updates : updateJob migrated jobs job fields = .ok next) (none : fields.newStatus = none)
    (other : Nat) : statusIn next other = statusIn jobs other := by
  rw [updateJob_status updates other, none]
  cases statusIn jobs other with
  | none | some status => simp

theorem Inv.report (inv : Inv state) (timely : Timely state (.report job fields)) :
    Inv (report migrated state job fields) ∧ Kept state (report migrated state job fields) := by
  unfold JobReports.report
  cases updates : updateJob migrated state.jobs job fields with
  | error raised => exact ⟨inv, Kept.refl state⟩
  | ok next =>
      simp only
      cases sets : fields.newStatus with
      | none =>
          have same : ∀ other, statusIn next other = statusOf state other :=
            updateJob_none updates sets
          simp only [Option.filter_none, Option.map_none, Option.toList_none, List.append_nil]
          refine ⟨⟨inv.results, fun other status member => (same other).trans
            (inv.reported other status member), fun other member => (same other).trans
            (inv.buried other member), fun other status finished found =>
            inv.source other status finished ((same other).symm.trans found)⟩,
            fun other status _ found => (same other).trans found, fun _ _ member => member,
            fun _ _ _ => rfl⟩
      | some status =>
          obtain ⟨sameResult, sameDead⟩ := timely status sets
          have after : ∀ other, statusIn next other = if other = job then
              (statusOf state other).map fun _ => status else statusOf state other := by
            intro other
            rw [updateJob_status updates other, sets]
            rfl
          -- a finished status is the one that is set again
          have stays : ∀ other old, old.Finished → statusOf state other = some old →
              statusIn next other = some old := by
            intro other old finished found
            rw [after other, found]
            by_cases isJob : other = job
            · subst isJob
              rw [if_pos rfl, Option.map_some]
              rcases inv.source other old finished found with isReported | ⟨rfl, isBuried⟩
              · rw [sameResult old isReported]
              · rw [sameDead isBuried]
            · rw [if_neg isJob]
          refine ⟨⟨?_, ?_, ?_, ?_⟩, stays, fun _ _ member => List.mem_append_left _ member,
            fun _ _ _ => rfl⟩
          · intro other old member
            rcases List.mem_append.mp member with earlier | isNew
            · exact inv.results other old earlier
            · simp only [Option.mem_toList, Option.map_eq_some_iff, Option.filter_eq_some_iff,
                decide_eq_true_eq] at isNew
              obtain ⟨new, ⟨same, finished⟩, pair⟩ := isNew
              cases pair
              exact finished
          · intro other old member
            rcases List.mem_append.mp member with earlier | isNew
            · exact stays other old (inv.results other old earlier) (inv.reported other old earlier)
            · simp only [Option.mem_toList, Option.map_eq_some_iff, Option.filter_eq_some_iff,
                decide_eq_true_eq] at isNew
              obtain ⟨new, ⟨same, finished⟩, pair⟩ := isNew
              cases pair
              cases same
              obtain ⟨was, found⟩ := updateJob_found updates sets
              change statusIn next job = some status
              rw [after job, if_pos rfl]
              change (statusIn state.jobs job).map _ = _
              rw [found, Option.map_some]
          · intro other member
            exact stays other .error (Or.inr rfl) (inv.buried other member)
          · intro other new finished found
            change statusIn next other = some new at found
            rw [after other] at found
            by_cases isJob : other = job
            · subst isJob
              rw [if_pos rfl] at found
              obtain ⟨-, -, rfl⟩ := Option.map_eq_some_iff.mp found
              refine Or.inl (List.mem_append_right _ ?_)
              rw [Option.mem_toList, Option.map_eq_some_iff]
              exact ⟨status, Option.filter_eq_some_iff.mpr ⟨rfl, decide_eq_true finished⟩, rfl⟩
            · rw [if_neg isJob] at found
              exact (inv.source other new finished found).imp_left (List.mem_append_left _)

theorem Inv.bury (inv : Inv state) {next : List JobRow} {reason : String} {now : ℚ}
    {sweep : Nat} {phase : Sweep}
    (updates : updateJob migrated state.jobs job (deadFields reason now) = .ok next)
    (unreported : ∀ old, (job, old) ∉ state.reported) :
    Inv { state.setSweep sweep phase with jobs := next, buried := state.buried ++ [job] } ∧
      Kept state
        { state.setSweep sweep phase with jobs := next, buried := state.buried ++ [job] } := by
  have sets := newStatus_dead reason now
  have after : ∀ other, statusIn next other = if other = job then
      (statusOf state other).map fun _ => .error else statusOf state other := by
    intro other
    rw [updateJob_status updates other, sets]
    rfl
  have stays : ∀ other (old : Status), old.Finished → statusOf state other = some old →
      statusIn next other = some old := by
    intro other old finished found
    rw [after other, found]
    by_cases isJob : other = job
    · subst isJob
      rw [if_pos rfl, Option.map_some]
      rcases inv.source other old finished found with isReported | ⟨rfl, -⟩
      · exact absurd isReported (unreported old)
      · rfl
    · rw [if_neg isJob]
  refine ⟨⟨inv.results, ?_, ?_, ?_⟩, stays, fun _ _ member => member, ?_⟩
  · intro other old member
    exact stays other old (inv.results other old member) (inv.reported other old member)
  · intro other member
    rcases List.mem_append.mp member with earlier | isNew
    · exact stays other .error (Or.inr rfl) (inv.buried other earlier)
    · cases List.mem_singleton.mp isNew
      obtain ⟨was, found⟩ := updateJob_found updates sets
      change statusIn next job = some .error
      rw [after job, if_pos rfl]
      change (statusIn state.jobs job).map _ = _
      rw [found, Option.map_some]
  · intro other new finished found
    change statusIn next other = some new at found
    rw [after other] at found
    by_cases isJob : other = job
    · subst isJob
      rw [if_pos rfl] at found
      obtain ⟨-, -, rfl⟩ := Option.map_eq_some_iff.mp found
      exact Or.inr ⟨rfl, List.mem_append_right _ (List.mem_singleton_self _)⟩
    · rw [if_neg isJob] at found
      exact (inv.source other new finished found).imp_right
        fun ⟨isError, member⟩ => ⟨isError, List.mem_append_left _ member⟩
  · intro other old member
    have apart : job ≠ other := fun same => unreported old (same ▸ member)
    change (state.buried ++ [job]).count other = state.buried.count other
    rw [List.count_append, List.count_singleton, if_neg (by simpa using apart), Nat.add_zero]

theorem Inv.next (inv : Inv state) {event : Event} (timely : Timely state event) :
    Inv (step ttl migrated state event) ∧ Kept state (step ttl migrated state event) := by
  have moved : ∀ sweep phase, Inv (state.setSweep sweep phase) ∧
      Kept state (state.setSweep sweep phase) := fun sweep phase =>
    ⟨⟨inv.results, inv.reported, inv.buried, inv.source⟩, fun _ _ _ found => found,
      fun _ _ member => member, fun _ _ _ => rfl⟩
  cases event with
  | createJob profileName now => exact inv.create _ rfl
  | report job fields => exact inv.report timely
  | abort sweep => exact moved sweep .aborted
  | read sweep now =>
      simp only [step]
      split
      · exact moved sweep _
      · exact ⟨inv, Kept.refl state⟩
  | judge sweep machine =>
      simp only [step]
      split
      · exact moved sweep _
      · split
        · exact moved sweep _
        · exact moved sweep _
      · exact ⟨inv, Kept.refl state⟩
  | write sweep =>
      simp only [step]
      cases phase : state.sweep sweep with
      | writing job reason rest now count =>
          simp only
          cases updates : updateJob migrated state.jobs job (deadFields reason now) with
          | error raised => exact moved sweep .aborted
          | ok next => exact inv.bury updates (timely job reason rest now count phase)
      | idle | judging rows now count | finished count | aborted => exact ⟨inv, Kept.refl state⟩

/-- A step that does not meet the condition changes a finished status or writes a reported job
dead. -/
theorem Inv.late (inv : Inv state) {event : Event} (late : ¬ Timely state event) :
    (∃ job status, status.Finished ∧ statusOf state job = some status ∧
        statusOf (step ttl migrated state event) job ≠ some status) ∨
      ∃ job status, (job, status) ∈ state.reported ∧
        (step ttl migrated state event).buried.count job ≠ state.buried.count job := by
  cases event with
  | createJob profileName now | abort sweep | read sweep now | judge sweep machine => exact absurd trivial late
  | report job fields =>
      left
      obtain ⟨status, sets, differs⟩ : ∃ status, fields.newStatus = some status ∧
          ∃ old, old.Finished ∧ statusOf state job = some old ∧ old ≠ status := by
        by_contra none
        refine late fun status sets => ⟨fun old isReported => ?_, fun isBuried => ?_⟩
        · by_contra differs
          exact none ⟨status, sets, old, inv.results job old isReported,
            inv.reported job old isReported, differs⟩
        · by_contra differs
          exact none ⟨status, sets, .error, Or.inr rfl, inv.buried job isBuried, Ne.symm differs⟩
      obtain ⟨old, finished, found, differs⟩ := differs
      refine ⟨job, old, finished, found, ?_⟩
      obtain ⟨next, updates⟩ := updateJob_writes migrated sets
        (fun none => by rw [statusOf, none] at found; cases found)
      simp only [step, JobReports.report, updates]
      change statusIn next job ≠ some old
      rw [updateJob_status updates job, if_pos rfl, sets]
      change (statusOf state job).map _ ≠ _
      rw [found]
      simpa using Ne.symm differs
  | write sweep =>
      right
      simp only [Timely, not_forall] at late
      obtain ⟨job, reason, rest, now, count, phase, old, isReported⟩ := late
      have member := not_not.mp isReported
      refine ⟨job, old, member, ?_⟩
      obtain ⟨next, updates⟩ := updateJob_writes migrated
        (newStatus_dead reason now)
        (fun none => by have found := inv.reported job old member; rw [statusOf, none] at found; cases found)
      simp only [step, phase, updates]
      rw [List.count_append, List.count_singleton, if_pos (by simp)]
      omega

theorem Inv.run (events : List Event) : ∀ start : State, Inv start →
    AllSteps (step ttl migrated) Timely start events →
      Inv (run (step ttl migrated) start events) ∧
        Kept start (run (step ttl migrated) start events) := by
  induction events with
  | nil => exact fun start inv _ => ⟨inv, Kept.refl start⟩
  | cons event rest ih =>
      intro start inv meets
      obtain ⟨after, kept⟩ := @Inv.next ttl migrated _ inv _ meets.1
      obtain ⟨final, keeps⟩ := ih _ after meets.2
      exact ⟨final, kept.trans keeps⟩

theorem Final.of_timely (events : List Event) (start : State) (inv : Inv start)
    (meets : AllSteps (step ttl migrated) Timely start events) : Final ttl migrated start events := by
  have between : ∀ earlier middle later, events = earlier ++ (middle ++ later) →
      Kept (run (step ttl migrated) start earlier)
        (run (step ttl migrated) start (earlier ++ middle)) := by
    intro earlier middle later split
    rw [split, allSteps_append, allSteps_append] at meets
    obtain ⟨before, onward, -⟩ := meets
    rw [run_append]
    exact (Inv.run middle _ (Inv.run earlier start inv before).1 onward).2
  refine ⟨fun earlier middle later split job status finished found => ?_,
    fun earlier middle later split job status member => ?_⟩
  · exact (between earlier middle later split).stays job status finished found
  · exact (between earlier middle later split).spared job status member

theorem Final.timely (events : List Event) : ∀ start : State, Inv start →
    Final ttl migrated start events → AllSteps (step ttl migrated) Timely start events := by
  induction events with
  | nil => intro start _ _; trivial
  | cons event rest ih =>
      intro start inv final
      have meets : Timely start event := by
        by_contra late
        rcases inv.late late with ⟨job, status, finished, found, changed⟩ | ⟨job, status, member,
          written⟩
        · exact changed (final.stays [] [event] rest rfl job status finished found)
        · exact written (final.spared [] [event] rest rfl job status member)
      refine ⟨meets, ih _ (inv.next meets).1 ⟨?_, ?_⟩⟩
      · intro earlier middle later split
        exact final.stays (event :: earlier) middle later (by rw [split]; rfl)
      · intro earlier middle later split
        exact final.spared (event :: earlier) middle later (by rw [split]; rfl)

end Invariant

theorem inv_resting : Inv resting := by
  refine ⟨?_, ?_, ?_, ?_⟩
  · intro job status member
    cases member
  · intro job status member
    cases member
  · intro job member
    cases member
  · intro job status _ found
    cases found

/-- In every interleaving of processes and sweeps, finished jobs stay as they are and reported jobs
are not written dead if and only if each status is reported in time and no result is reported
between the read of a sweep and its write. -/
theorem final_iff_timely (ttl : ℚ) (migrated : Bool) (events : List Event) :
    Final ttl migrated resting events ↔ AllSteps (step ttl migrated) Timely resting events :=
  ⟨Final.timely events resting inv_resting, Final.of_timely events resting inv_resting⟩

/-- The process of the job has ended. -/
def exited : Machine := ⟨fun _ => .notFound, none, fun _ => none, none, 100⟩

def runningFields : Fields :=
  { noFields with status := some "running", pid := some 42, startedAt := some 10 }

def doneFields : Fields := { noFields with status := some "done", finishedAt := some 20 }

def endsMeanwhile : List Event :=
  [.createJob "odoo17" 5, .report 1 runningFields, .read 0 19, .report 1 doneFields,
    .judge 0 exited, .write 0]

/-- A job that was recorded done becomes an error. -/
theorem done_becomes_error :
    statusOf (run (step 600 true) resting (endsMeanwhile.take 4)) 1 = some .done ∧
      statusOf (run (step 600 true) resting endsMeanwhile) 1 = some .error ∧
      ¬ Final 600 true resting endsMeanwhile := by
  have before : statusOf (run (step 600 true) resting (endsMeanwhile.take 4)) 1 = some .done := by
    decide +kernel
  have after : statusOf (run (step 600 true) resting endsMeanwhile) 1 = some .error := by
    decide +kernel
  refine ⟨before, after, fun final => ?_⟩
  have stays := final.stays (endsMeanwhile.take 4) (endsMeanwhile.drop 4) [] rfl 1 .done
    (Or.inl rfl) before
  rw [List.take_append_drop, after] at stays
  cases stays

end OdooSemantic.Registry.JobReports
