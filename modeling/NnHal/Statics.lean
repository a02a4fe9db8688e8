import NnHal.NgraphNetworkCreator

/-!
# Creators and the static members

The driver builds a creator for every model it is asked about, on several
threads, and all of them share the static members of `OperationsBase`.  The
driver calls are the actions of a `Runs.Clients` system: a client is a
creator, the shared state is the statics, and each call is one step.

A creator answers as if it were alone as long as each of its calls meets the
statics its own construction installed.  Nothing ensures that: a construction
for another model between two calls of a creator makes the second one read the
other model.
-/

namespace NnHal

open Command Runs

/-- A call made on behalf of one creator. -/
inductive DriverCall
  | construct (modelInfo : NnapiModelInfo) (deviceType : IntelDeviceType)
  | validateOperations
  | getSupportedOperations
  | generateGraph

/-- What a call returns; `none` where the process is aborted or the exception
leaves the driver is kept as the way it stopped. -/
inductive DriverAnswer
  | constructed
  | validated (success : Except Stop Bool)
  | supported (verdicts : Except Stop (List Bool))
  | graph (function : Except Stop (Option NgraphFunction))
  | noCreator

/-- A creator together with the statics its construction installed, which only
the statements about it look at. -/
structure LiveCreator where
  creator : NgraphNetworkCreator
  installed : Statics

namespace LiveCreator

variable (ng : Ngraph) (statics : Statics) (live : LiveCreator)

/-- The creator after a run on its node table. -/
def withNodes (nodes : NgraphNodes) : LiveCreator :=
  { live with creator := { live.creator with mNgraphNodes := nodes } }

/-- A method of the creator, with the statics it meets. -/
def call : DriverCall → LiveCreator × DriverAnswer
  | .construct _ _ => (live, .noCreator)
  | .validateOperations =>
      let run := exec (answer ng) (live.creator.validateOperations statics)
        live.creator.mNgraphNodes
      (live.withNodes run.state, .validated run.outcome)
  | .getSupportedOperations =>
      let run := exec (answer ng) (live.creator.getSupportedOperations statics)
        live.creator.mNgraphNodes
      (live.withNodes run.state, .supported run.outcome)
  | .generateGraph =>
      (live.withNodes (live.creator.generateRun statics ng).state,
        .graph (live.creator.generateGraph statics ng))

@[simp]
theorem call_installed (c : DriverCall) :
    (live.call ng statics c).1.installed = live.installed := by
  cases c <;> rfl

end LiveCreator

/-- The driver: constructing a creator replaces the statics, every other call
reads them. -/
def driver (ng : Ngraph) : Clients Statics (Option LiveCreator) DriverCall DriverAnswer where
  act statics live c :=
    match c, live with
    | .construct modelInfo deviceType, _ =>
        let (creator, installed) := NgraphNetworkCreator.construct modelInfo deviceType
        (installed, some { creator, installed }, .constructed)
    | c, some live =>
        let (live, answer) := live.call ng statics c
        (statics, some live, answer)
    | _, none => (statics, none, .noCreator)

/-- The statics are those the creator has installed. -/
def OwnStatics (statics : Statics) (live : Option LiveCreator) : Prop :=
  ∀ creator ∈ live, statics = creator.installed

/-- A call that reads the statics meets those of its own creator. -/
def Undisturbed (statics : Statics) (live : Option LiveCreator) : DriverCall → Prop
  | .construct _ _ => True
  | _ => OwnStatics statics live

/-- **Step.**  Alone, a creator finds its own statics again after every
call. -/
theorem ownStatics_act {ng : Ngraph} {statics : Statics} {live : Option LiveCreator}
    (c : DriverCall) (h : OwnStatics statics live) :
    OwnStatics ((driver ng).act statics live c).1 ((driver ng).act statics live c).2.1 := by
  cases live with
  | none => cases c <;> simp [driver, OwnStatics]
  | some live =>
      have hown : statics = live.installed := h live rfl
      cases c <;> simp [driver, OwnStatics, hown]

/-- Two calls that both meet the creator's own statics meet the same ones. -/
theorem act_undisturbed {ng : Ngraph} {statics statics' : Statics} {live : Option LiveCreator}
    {c : DriverCall} (h : Undisturbed statics live c) (h' : Undisturbed statics' live c) :
    ((driver ng).act statics live c).2 = ((driver ng).act statics' live c).2 := by
  cases live with
  | none => cases c <;> rfl
  | some live =>
      cases c with
      | construct modelInfo deviceType => rfl
      | validateOperations | getSupportedOperations | generateGraph =>
          obtain rfl : statics = statics' := (h live rfl).trans (h' live rfl).symm
          rfl

/-- No creator has been constructed yet. -/
def driverStart (before : Statics) : Statics × (Nat → Option LiveCreator) :=
  (before, fun _ => none)

/-- A run in which each call of the creator meets the statics the creator has
installed. -/
def UndisturbedRun (ng : Ngraph) (before : Statics) (k : Nat)
    (calls : List (Nat × DriverCall)) : Prop :=
  Checked (fun w a => a.1 = k → Undisturbed w.1 (w.2 k) a.2) (driver ng).step
    (driverStart before) calls

/-- **Creators that are not disturbed.**  In every run of the driver, with any
number of creators, a creator whose calls all meet its own statics receives
the answers it would receive alone: its verdicts, its success flag and its
graph. -/
theorem answers_undisturbed (ng : Ngraph) (before : Statics) (k : Nat)
    (calls : List (Nat × DriverCall)) (h : UndisturbedRun ng before k calls) :
    (driver ng).answers k (driverStart before) calls =
      (driver ng).answers k (driverStart before) (Clients.alone k calls) := by
  have hnone : OwnStatics before none := fun _ hlive => nomatch hlive
  refine Clients.noninterference (fun _ _ _ _ => act_undisturbed) (fun statics live c hown => ?_)
    (fun _ _ c => ownStatics_act c) rfl hnone h
  cases c <;> trivial

/-- A model with one addition, whose activation has the given lifetime. -/
def additionModel (activation : OperandLifeTime) : Model where
  operands :=
    [{ type := .tensorFloat32, dimensions := [2], lifetime := .subgraphInput },
     { type := .tensorFloat32, dimensions := [2], lifetime := .subgraphInput },
     { type := .int32, lifetime := activation, location := { length := 4 } },
     { type := .tensorFloat32, dimensions := [2], lifetime := .subgraphOutput }]
  operations := [{ type := .add, inputs := [0, 1, 2], outputs := [3] }]
  inputIndexes := [0, 1] ++ if activation = .subgraphInput then [2] else []
  outputIndexes := [3]
  operandValues := [0, 0, 0, 0]

/-- One call after the other, first all those of one creator. -/
theorem answers_undisturbed_additions :
    (driver .permissive).answers 0 (driverStart ⟨.cpu, ⟨additionModel .constantCopy, []⟩⟩)
        [(0, .construct ⟨additionModel .constantCopy, []⟩ .cpu), (0, .validateOperations),
          (1, .construct ⟨additionModel .subgraphInput, []⟩ .cpu), (1, .validateOperations)] =
      [.constructed, .validated (.ok true)] := by
  refine (answers_undisturbed _ _ 0 _ ?_).trans rfl
  simp [UndisturbedRun, Checked, Undisturbed, OwnStatics, driver, driverStart, Clients.step]

/-- A construction for a second model in between turns the verdict of the
first creator. -/
theorem answers_disturbed :
    ¬ ∀ (ng : Ngraph) (before : Statics) (k : Nat) (calls : List (Nat × DriverCall)),
      (driver ng).answers k (driverStart before) calls =
        (driver ng).answers k (driverStart before) (Clients.alone k calls) := by
  intro h
  have halone := h .permissive ⟨.cpu, ⟨additionModel .constantCopy, []⟩⟩ 0
    [(0, .construct ⟨additionModel .constantCopy, []⟩ .cpu),
      (1, .construct ⟨additionModel .subgraphInput, []⟩ .cpu), (0, .validateOperations)]
  have hdisturbed : [DriverAnswer.constructed, .validated (.ok false)] =
      [DriverAnswer.constructed, .validated (.ok true)] := halone
  simp at hdisturbed

end NnHal
