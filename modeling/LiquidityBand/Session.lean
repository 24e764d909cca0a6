import LiquidityBand.Plan.Band
import LiquidityBand.Plan.Report
import LiquidityBand.Toml.Config

/-!
# Sessions

A session works on planning parameters, an amount and a plan, step by step. A step that fails
leaves the session as it was; only parameters that are set by value stay, also if no position can
be planned with them.

* `Session` is what is worked on, and `Step` what can be done;
* `Session.perform` does one step and gives its reply, and `Session.run` does many.
-/

namespace LiquidityBand

/-- The parameters, the amount and the plan that are worked on. -/
structure Session where
  config : Config
  amount : Amount
  plan? : Option Plan
  deriving DecidableEq, Repr

/-- What can be done in a session. -/
inductive Step where
  | setConfigText (text : String)
  | setConfig (config : Config)
  | setAmount (amount : Amount)
  | parseAmount (text : String)
  | rescaleAmount (source target : UInt8)
  | formatAmount
  | planTicks (band : TickBand)
  | planPrices (lower upper : Float)
  | planDefault
  | planMargin
  | requireAmount
  | writePlan
  | readPlan (text : String)
  | reportPlan
  | tellStatus (current : SqrtPrice)
  | tellAmounts (current : SqrtPrice) (roundUp : Bool)

/-- What a step gives. -/
inductive Reply where
  | config (config : Config)
  | amount (amount : Amount)
  | plan (plan : Plan)
  | text (text : String)
  | report (plan : Plan) (depositDecimals : UInt8)
  | status (status : Status)
  | amounts (amounts : AmountPair)

/-- Why a step gives nothing. -/
inductive Refusal where
  /-- There is no plan yet. -/
  | noPlan
  | failed (error : PlanError)

/-- The session behind a step, what the step reported, and its reply. -/
structure Outcome where
  session : Session
  entries : List Entry
  reply : Except Refusal Reply

namespace Session

/-- A session with parameters, before its first step. -/
def start (config : Config) : Session := ⟨config, 0, none⟩

/-- The outcome of a computation; if it succeeds, `f` gives the next session and the reply. -/
def outcome {α : Type} (s : Session) (r : Logged α) (f : α → Session × Reply) : Outcome :=
  match r.result with
  | .ok a => ⟨(f a).1, r.entries, .ok (f a).2⟩
  | .error e => ⟨s, r.entries, .error (.failed e)⟩

/-- The outcome of a computation on the plan. -/
def withPlan {α : Type} (s : Session) (r : Plan → Except PlanError α)
    (f : α → Session × Reply) : Outcome :=
  match s.plan? with
  | none => ⟨s, [], .error .noPlan⟩
  | some p => s.outcome (.ofResult (r p)) f

/-- The session with a new amount, and that amount. -/
def replaceAmount (s : Session) (amount : Amount) : Session × Reply :=
  ({ s with amount }, .amount amount)

/-- The session with a new plan, and that plan. -/
def replacePlan (s : Session) (p : Plan) : Session × Reply := ({ s with plan? := some p }, .plan p)

/-- One step. -/
def perform (s : Session) (step : Step) : Outcome :=
  match step with
  | .setConfigText text =>
      s.outcome (.ofResult (Config.ofToml text)) fun config => ({ s with config }, .config config)
  | .setConfig config =>
      let s := { s with config }
      s.outcome (.ofResult (config.validate.mapError PlanError.config)) fun _ =>
        (s, .config config)
  | .setAmount amount => s.outcome (.ofResult (.ok amount)) s.replaceAmount
  | .parseAmount text =>
      s.outcome
        (.ofResult ((Amount.parse text s.config.depositDecimals).mapError PlanError.amount))
        s.replaceAmount
  | .rescaleAmount source target =>
      s.outcome (.ofResult ((Amount.rescale s.amount source target).mapError PlanError.amount))
        s.replaceAmount
  | .formatAmount =>
      s.outcome (.ofResult (.ok (Amount.format s.amount s.config.depositDecimals))) fun text =>
        (s, .text text)
  | .planTicks band => s.outcome (Plan.ofTicks band s.amount s.config) s.replacePlan
  | .planPrices lower upper =>
      s.outcome (Plan.ofPrices lower upper s.amount s.config) s.replacePlan
  | .planDefault => s.outcome (Plan.default s.amount s.config) s.replacePlan
  | .planMargin =>
      s.outcome (Plan.ofMargin s.amount s.config) fun p =>
        ({ s with plan? := some p, amount := p.amount }, .plan p)
  | .requireAmount => s.withPlan Plan.required s.replaceAmount
  | .writePlan => s.withPlan (fun p => .ok p.toJson) fun text => (s, .text text)
  | .readPlan text => s.outcome (.ofResult (Plan.ofJson text)) s.replacePlan
  | .reportPlan => s.withPlan .ok fun p => (s, .report p s.config.depositDecimals)
  | .tellStatus current =>
      s.withPlan (fun p => .ok (Status.ofTicks current p.ticks.lower p.ticks.upper)) fun status =>
        (s, .status status)
  | .tellAmounts current roundUp =>
      s.withPlan
        (fun p => PlanError.ofCore (p.liquidity.amounts current p.sqrtPrices roundUp))
        fun amounts => (s, .amounts amounts)

/-- The outcomes of steps, one after another. -/
def run : Session → List Step → List Outcome
  | _, [] => []
  | s, step :: steps =>
      let o := s.perform step
      o :: run o.session steps

/-- The session behind steps. -/
def final (s : Session) (steps : List Step) : Session :=
  steps.foldl (fun s step => (s.perform step).session) s

end Session

end LiquidityBand
