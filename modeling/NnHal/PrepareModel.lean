import NnHal.NgraphNetworkCreator

/-!
# Preparing a model

The four `prepareModel` calls of the driver check their arguments, let
`ModelFactory` choose a class by the device, initialize the object and notify
the callback.  Only the CPU and the GNA have a class; the others get a null
pointer.  The first three calls return without a notification then, the fourth
dereferences the pointer.

`initialize` is the same sequence of steps in both classes, but only the CPU's
catches what the inference engine throws.
-/

namespace NnHal

/-- The result of a C++ call that may throw a `std::exception`, with its
`what()`. -/
abbrev Throwing := Except String

/-- The outcomes of the steps of `initialize`.  `loadNetwork` stands for the
construction of the network, its serialization and the loading, whose answer
nothing looks at. -/
structure InitializeSteps where
  initRuntimeInfo : Throwing Bool
  validateOperations : Throwing Bool
  generateGraph : Throwing (Option NgraphFunction)
  loadNetwork : Throwing Unit

/-- The steps both classes take before they load the network. -/
def InitializeSteps.beforeLoad (steps : InitializeSteps) (load : Throwing Bool) :
    Throwing Bool := do
  let mapped ← steps.initRuntimeInfo
  if ¬ mapped then return false
  let supported ← steps.validateOperations
  if ¬ supported then return false
  let ngraph_function ← steps.generateGraph
  if ngraph_function.isNone then return false
  load

/-- `CpuPreparedModel::initialize` catches what the loading throws. -/
def CpuPreparedModel.initialize (steps : InitializeSteps) : Throwing Bool :=
  steps.beforeLoad (tryCatch (do steps.loadNetwork; pure true) fun _ => pure false)

/-- `GnaPreparedModel::initialize` does not. -/
def GnaPreparedModel.initialize (steps : InitializeSteps) : Throwing Bool :=
  steps.beforeLoad (do steps.loadNetwork; pure true)

/-- An object of a class derived from `BasePreparedModel`. -/
inductive DriverPreparedModel
  | cpu (model : Model)
  | gna (model : Model)
  deriving DecidableEq, Repr

def DriverPreparedModel.initialize : DriverPreparedModel → InitializeSteps → Throwing Bool
  | .cpu _, steps => CpuPreparedModel.initialize steps
  | .gna _, steps => GnaPreparedModel.initialize steps

/-- `ModelFactory`. -/
def ModelFactory (deviceType : IntelDeviceType) (model : Model) : Option DriverPreparedModel :=
  if deviceType = .cpu then some (.cpu model)
  else if deviceType = .gna then some (.gna model)
  else none

/-! ## The driver -/

/-- One call of a `notify` method. -/
structure PrepareNotification where
  callback : Nat
  status : ErrorStatus
  preparedModel : Option DriverPreparedModel
  deriving DecidableEq, Repr

/-- How a call of the driver leaves it without returning. -/
inductive Unwind
  | exception (what : String)
  | nullPointer
  deriving DecidableEq, Repr

/-- What a `prepareModel` call does: its notifications, and what it returns. -/
structure PrepareRun where
  notifications : List PrepareNotification
  outcome : Except Unwind ErrorStatus
  deriving DecidableEq, Repr

/-- The driver, with the argument checks of the framework. -/
structure Driver where
  mDeviceType : IntelDeviceType
  validateModel : Model → Bool
  validateExecutionPreference : Nat → Bool
  validatePriority : Nat → Bool

namespace Driver

variable (driver : Driver) (steps : InitializeSteps)

/-- The common end of the four calls: the object is initialized and the callback
notified. -/
def initializeAndNotify (callback : Nat) (driverPreparedModel : DriverPreparedModel) : PrepareRun :=
  match driverPreparedModel.initialize steps with
  | .error what => ⟨[], .error (.exception what)⟩
  | .ok false => ⟨[⟨callback, .invalidArgument, none⟩], .ok .none⟩
  | .ok true => ⟨[⟨callback, .none, some driverPreparedModel⟩], .ok .none⟩

/-- The body of the first three calls, which differ in the checks. -/
def prepareModelBase (valid : Bool) (model : Model) (callback : Option Nat) : PrepareRun :=
  match callback with
  | none => ⟨[], .ok .invalidArgument⟩
  | some callback =>
      if ¬ valid then ⟨[⟨callback, .invalidArgument, none⟩], .ok .invalidArgument⟩
      else
        match ModelFactory driver.mDeviceType model with
        | none => ⟨[], .ok .invalidArgument⟩
        | some driverPreparedModel => initializeAndNotify steps callback driverPreparedModel

def prepareModel (model : Model) (callback : Option Nat) : PrepareRun :=
  driver.prepareModelBase steps (driver.validateModel model) model callback

def prepareModel_1_1 (model : Model) (preference : Nat) (callback : Option Nat) : PrepareRun :=
  driver.prepareModelBase steps
    (driver.validateModel model && driver.validateExecutionPreference preference) model callback

def prepareModel_1_2 (model : Model) (preference : Nat) (callback : Option Nat) : PrepareRun :=
  driver.prepareModelBase steps
    (driver.validateModel model && driver.validateExecutionPreference preference) model callback

/-- `prepareModel_1_3` does not look at the pointer before it uses it. -/
def prepareModel_1_3 (model : Model) (preference priority : Nat) (callback : Option Nat) :
    PrepareRun :=
  match callback with
  | none => ⟨[], .ok .invalidArgument⟩
  | some callback =>
      if ¬ driver.validateModel model ∨ ¬ driver.validateExecutionPreference preference ∨
          ¬ driver.validatePriority priority then
        ⟨[⟨callback, .invalidArgument, none⟩], .ok .invalidArgument⟩
      else
        match ModelFactory driver.mDeviceType model with
        | none => ⟨[], .error .nullPointer⟩
        | some driverPreparedModel => initializeAndNotify steps callback driverPreparedModel

end Driver

/-- One of the four calls with its arguments. -/
inductive PrepareCall
  | prepareModel (model : Model)
  | prepareModel_1_1 (model : Model) (preference : Nat)
  | prepareModel_1_2 (model : Model) (preference : Nat)
  | prepareModel_1_3 (model : Model) (preference priority : Nat)

namespace PrepareCall

def model : PrepareCall → Model
  | .prepareModel model | .prepareModel_1_1 model _ | .prepareModel_1_2 model _
  | .prepareModel_1_3 model _ _ => model

/-- The call's arguments pass the checks. -/
def valid (driver : Driver) : PrepareCall → Bool
  | .prepareModel model => driver.validateModel model
  | .prepareModel_1_1 model preference | .prepareModel_1_2 model preference =>
      driver.validateModel model && driver.validateExecutionPreference preference
  | .prepareModel_1_3 model preference priority =>
      driver.validateModel model && driver.validateExecutionPreference preference &&
        driver.validatePriority priority

def run (driver : Driver) (steps : InitializeSteps) (callback : Option Nat) :
    PrepareCall → PrepareRun
  | .prepareModel model => driver.prepareModel steps model callback
  | .prepareModel_1_1 model preference => driver.prepareModel_1_1 steps model preference callback
  | .prepareModel_1_2 model preference => driver.prepareModel_1_2 steps model preference callback
  | .prepareModel_1_3 model preference priority =>
      driver.prepareModel_1_3 steps model preference priority callback

/-- The model has been initialized: the arguments are valid, the device has a
class and its `initialize` returns true. -/
def Initialized (driver : Driver) (steps : InitializeSteps) (call : PrepareCall) : Prop :=
  call.valid driver = true ∧
    ∃ prepared, ModelFactory driver.mDeviceType call.model = some prepared ∧
      prepared.initialize steps = .ok true

end PrepareCall

/-- The call returns and its callback hears of it once: with the prepared model
when the model has been initialized, with an error and no model otherwise. -/
structure AnsweredOnce (callback : Nat) (initialized : Prop) (run : PrepareRun) : Prop where
  returns : ∃ status, run.outcome = .ok status
  once : ∃ n, run.notifications = [n] ∧ n.callback = callback ∧
    (initialized → n.status = .none ∧ n.preparedModel.isSome = true) ∧
      (¬ initialized → n.status ≠ .none ∧ n.preparedModel = none)

/-! ## When the callback is notified -/

namespace InitializeSteps

variable (steps : InitializeSteps)

/-- The network is loaded: the steps before have all succeeded. -/
def Loads : Prop :=
  steps.initRuntimeInfo = .ok true ∧ steps.validateOperations = .ok true ∧
    ∃ ngraph_function, steps.generateGraph = .ok (some ngraph_function)

/-- One of the steps before the loading throws. -/
def ThrowsBeforeLoad : Prop :=
  (∃ what, steps.initRuntimeInfo = .error what) ∨
    steps.initRuntimeInfo = .ok true ∧
      ((∃ what, steps.validateOperations = .error what) ∨
        steps.validateOperations = .ok true ∧ ∃ what, steps.generateGraph = .error what)

/-- An exception leaves `initialize`: an early step throws, or on the GNA the
loading does. -/
def Escapes (deviceType : IntelDeviceType) : Prop :=
  steps.ThrowsBeforeLoad ∨
    deviceType = .gna ∧ steps.Loads ∧ ∃ what, steps.loadNetwork = .error what

theorem beforeLoad_throws_iff (load : Throwing Bool) :
    (∃ what, steps.beforeLoad load = .error what) ↔
      steps.ThrowsBeforeLoad ∨ steps.Loads ∧ ∃ what, load = .error what := by
  unfold beforeLoad ThrowsBeforeLoad Loads
  cases steps.initRuntimeInfo with
  | error what => simp [bind, Except.bind]
  | ok mapped =>
      cases mapped with
      | false => simp [bind, Except.bind, pure, Except.pure]
      | true =>
          cases steps.validateOperations with
          | error what => simp [bind, Except.bind]
          | ok supported =>
              cases supported with
              | false => simp [bind, Except.bind, pure, Except.pure]
              | true =>
                  cases steps.generateGraph with
                  | error what => simp [bind, Except.bind]
                  | ok ngraph_function =>
                      cases ngraph_function with
                      | none => simp [bind, Except.bind, pure, Except.pure]
                      | some f => simp [bind, Except.bind]

theorem cpu_initialize_throws_iff :
    (∃ what, CpuPreparedModel.initialize steps = .error what) ↔ steps.Escapes .cpu := by
  have hcaught : ¬ ∃ what, (tryCatch (do steps.loadNetwork; pure true) fun _ => pure false :
      Throwing Bool) = .error what := by
    intro hboth
    rcases hboth with ⟨what, hwhat⟩
    cases hload : steps.loadNetwork <;> rw [hload] at hwhat <;> cases hwhat
  unfold CpuPreparedModel.initialize Escapes
  rw [beforeLoad_throws_iff]
  simp only [hcaught, and_false, or_false, reduceCtorEq, false_and]

theorem gna_initialize_throws_iff :
    (∃ what, GnaPreparedModel.initialize steps = .error what) ↔ steps.Escapes .gna := by
  have hthrown : (∃ what, (do steps.loadNetwork; pure true : Throwing Bool) = .error what) ↔
      ∃ what, steps.loadNetwork = .error what := by
    cases steps.loadNetwork <;> simp [bind, Except.bind, pure, Except.pure]
  unfold GnaPreparedModel.initialize Escapes
  rw [beforeLoad_throws_iff, hthrown]
  simp only [true_and]

end InitializeSteps

theorem initialize_throws_iff {deviceType : IntelDeviceType} {model : Model}
    {prepared : DriverPreparedModel} (hfactory : ModelFactory deviceType model = some prepared)
    (steps : InitializeSteps) :
    (∃ what, prepared.initialize steps = .error what) ↔ steps.Escapes deviceType := by
  unfold ModelFactory at hfactory
  by_cases hcpu : deviceType = .cpu
  · subst hcpu
    obtain rfl : DriverPreparedModel.cpu model = prepared := by simpa using hfactory
    exact steps.cpu_initialize_throws_iff
  · by_cases hgna : deviceType = .gna
    · subst hgna
      obtain rfl : DriverPreparedModel.gna model = prepared := by simpa using hfactory
      exact steps.gna_initialize_throws_iff
    · simp [hcpu, hgna] at hfactory

/-- The device has a class. -/
def IntelDeviceType.hasClass (deviceType : IntelDeviceType) : Prop :=
  deviceType = .cpu ∨ deviceType = .gna

theorem modelFactory_isSome_iff (deviceType : IntelDeviceType) (model : Model) :
    (∃ prepared, ModelFactory deviceType model = some prepared) ↔ deviceType.hasClass := by
  cases deviceType <;> simp [ModelFactory, IntelDeviceType.hasClass]

/-- The common end answers once unless an exception leaves it. -/
theorem initializeAndNotify_answeredOnce_iff (steps : InitializeSteps) (callback : Nat)
    (prepared : DriverPreparedModel) :
    AnsweredOnce callback ( prepared.initialize steps = .ok true)
        (Driver.initializeAndNotify steps callback prepared) ↔
      ¬ ∃ what, prepared.initialize steps = .error what := by
  unfold Driver.initializeAndNotify
  cases hinit : prepared.initialize steps with
  | error what =>
      refine iff_of_false ?_ (not_not.mpr ⟨what, rfl⟩)
      intro hboth
      rcases hboth with ⟨⟨status, hstatus⟩, -⟩
      cases hstatus
  | ok initialized =>
      refine iff_of_true ?_ (by simp)
      cases initialized with
      | false => exact ⟨⟨_, rfl⟩, _, rfl, rfl, by simp, by simp⟩
      | true => exact ⟨⟨_, rfl⟩, _, rfl, rfl, by simp, by simp⟩

namespace PrepareCall

variable {driver : Driver} {steps : InitializeSteps} {call : PrepareCall} {callback : Nat}

theorem run_of_invalid (h : call.valid driver = false) :
    call.run driver steps (some callback) =
      ⟨[⟨callback, .invalidArgument, none⟩], .ok .invalidArgument⟩ := by
  cases call with
  | prepareModel model =>
      have hvalid : driver.validateModel model = false := h
      simp [run, Driver.prepareModel, Driver.prepareModelBase, hvalid]
  | prepareModel_1_1 model preference | prepareModel_1_2 model preference =>
      have hvalid : (driver.validateModel model &&
        driver.validateExecutionPreference preference) = false := h
      simp [run, Driver.prepareModel_1_1, Driver.prepareModel_1_2, Driver.prepareModelBase, hvalid]
  | prepareModel_1_3 model preference priority =>
      have hinvalid : ¬ driver.validateModel model ∨
          ¬ driver.validateExecutionPreference preference ∨ ¬ driver.validatePriority priority := by
        simp only [valid, Bool.and_eq_false_iff] at h
        simp only [Bool.not_eq_true]
        tauto
      simp only [run, Driver.prepareModel_1_3, if_pos hinvalid]

/-- With valid arguments the class decides.  Without one nothing is notified. -/
theorem run_of_valid (h : call.valid driver = true) :
    ∃ missing : PrepareRun, missing.notifications = [] ∧
      call.run driver steps (some callback) =
        (ModelFactory driver.mDeviceType call.model).elim missing
          (Driver.initializeAndNotify steps callback) := by
  cases call with
  | prepareModel model =>
      have hvalid : driver.validateModel model = true := h
      refine ⟨⟨[], .ok .invalidArgument⟩, rfl, ?_⟩
      simp only [run, Driver.prepareModel, Driver.prepareModelBase, hvalid, PrepareCall.model]
      cases ModelFactory driver.mDeviceType model <;> rfl
  | prepareModel_1_1 model preference | prepareModel_1_2 model preference =>
      have hvalid : (driver.validateModel model &&
        driver.validateExecutionPreference preference) = true := h
      refine ⟨⟨[], .ok .invalidArgument⟩, rfl, ?_⟩
      simp only [run, Driver.prepareModel_1_1, Driver.prepareModel_1_2, Driver.prepareModelBase,
        hvalid, PrepareCall.model]
      cases ModelFactory driver.mDeviceType model <;> rfl
  | prepareModel_1_3 model preference priority =>
      simp only [valid, Bool.and_eq_true] at h
      refine ⟨⟨[], .error .nullPointer⟩, rfl, ?_⟩
      simp only [run, Driver.prepareModel_1_3, h, PrepareCall.model, not_true_eq_false, or_self,
        if_false]
      cases ModelFactory driver.mDeviceType model <;> rfl

end PrepareCall

/-- **Notification.**  A `prepareModel` call answers its callback once exactly
when its arguments are refused, or when the device has a class and no exception
leaves `initialize`. -/
theorem prepareModel_answeredOnce_iff (driver : Driver) (call : PrepareCall)
    (steps : InitializeSteps) (callback : Nat) :
    AnsweredOnce callback (call.Initialized driver steps)
        (call.run driver steps (some callback)) ↔
      call.valid driver = false ∨
        driver.mDeviceType.hasClass ∧ ¬ steps.Escapes driver.mDeviceType := by
  by_cases hvalid : call.valid driver = true
  · have hfalse : ¬ call.valid driver = false := by simp [hvalid]
    obtain ⟨missing, hmissing, hrun⟩ := @PrepareCall.run_of_valid driver steps call callback hvalid
    rw [hrun, or_iff_right hfalse, ← modelFactory_isSome_iff driver.mDeviceType call.model]
    cases hfactory : ModelFactory driver.mDeviceType call.model with
    | none =>
        -- No object: nothing has been notified.
        refine iff_of_false ?_ (by simp)
        intro hanswered
        rcases hanswered.once with ⟨n, hn, -⟩
        rw [Option.elim_none, hmissing] at hn
        cases hn
    | some prepared =>
        have hinitialized : call.Initialized driver steps ↔
            prepared.initialize steps = .ok true := by
          simp [PrepareCall.Initialized, hvalid, hfactory]
        rw [Option.elim_some, ← initialize_throws_iff hfactory, hinitialized,
          initializeAndNotify_answeredOnce_iff]
        simp
  · have hfalse : call.valid driver = false := by simpa using hvalid
    refine iff_of_true ?_ (.inl hfalse)
    have hnot : ¬ call.Initialized driver steps := fun h => hvalid h.1
    rw [PrepareCall.run_of_invalid hfalse]
    exact ⟨⟨_, rfl⟩, _, rfl, rfl, fun h => absurd h hnot, fun _ => ⟨by simp, rfl⟩⟩

/-- A driver for the GPU that accepts every argument. -/
def gpuDriver : Driver where
  mDeviceType := .gpu
  validateModel _ := true
  validateExecutionPreference _ := true
  validatePriority _ := true

/-- The GPU has no class: `prepareModel` returns and its callback hears
nothing. -/
theorem gpu_prepareModel_unanswered :
    ¬ ∀ (driver : Driver) (call : PrepareCall) (steps : InitializeSteps) (callback : Nat),
      AnsweredOnce callback (call.Initialized driver steps)
        (call.run driver steps (some callback)) := by
  intro h
  have hanswered := h gpuDriver (.prepareModel default)
    ⟨.ok true, .ok true, .ok none, .ok ()⟩ 0
  rcases hanswered.once with ⟨n, hn, -⟩
  cases hn

end NnHal
