import Fusecraft.Limiter.Schedules
import Fusecraft.Limiter.Bandwidth
import Fusecraft.Sampler.Samples
import Fusecraft.Telemetry.Metrics

namespace Fusecraft

/-!
# The simulation engine

`run_op` takes one operation through its lifecycle: a sequence number, a slot
of the op's limiter, the sampled fault and latency, the bandwidth delay, the
sleep, the reply body, one event, one metric, and the release of the slot.
Any number of calls run concurrently, so the lifecycle is a step relation: a
label names the call that moves and carries the clock readings it makes.

A step of a call touches at most one shared store.  The limiter of each op is
the limiter's own transition system; a step of the engine makes at most one
step in one of them.
-/

/-- What a caller says about an operation. -/
structure OpContext where
  op : FsOp
  ino : UInt64
  offset : UInt64
  len : Nat
  requestedLen : Nat
  deriving DecidableEq, Repr

/-- The context of a metadata op. -/
def OpContext.metadata (op : FsOp) (ino : UInt64) : OpContext where
  op := op
  ino := ino
  offset := 0
  len := 0
  requestedLen := 0

/-- The context of a data op that moves what was asked for. -/
def OpContext.data (op : FsOp) (ino offset : UInt64) (len : Nat) : OpContext where
  op := op
  ino := ino
  offset := offset
  len := len
  requestedLen := len

/-- Override the length that was originally asked for. -/
def OpContext.withRequestedLen (ctx : OpContext) (requestedLen : Nat) : OpContext :=
  { ctx with requestedLen := requestedLen }

/-- The profile set that a call is routed to. -/
inductive Tier where
  | base
  | large
  deriving DecidableEq, Repr

/-- Per-op resources owned by the engine. -/
structure OpResources (F : Type) where
  policy : OpPolicy F
  limiter : BlockingLimiter
  bandwidth : Option (BandwidthLimiter F)
  largeBandwidth : Option (BandwidthLimiter F)

/-- The immutable part of an engine.  Every op has resources. -/
structure SimEngine (F : Type) where
  seed : UInt64
  resources : FsOp -> OpResources F

/-- The effective profiles for one call. -/
structure TierChoice (F : Type) where
  tier : Tier
  latency : LatencyProfile F
  faults : List (FaultRule F)
  bandwidth : Option (BandwidthLimiter F)

section Construction

variable {F : Type} [F64 F]

/-- The resources of an op under its policy. -/
def OpResources.new (policy : OpPolicy F) : OpResources F where
  policy := policy
  limiter := { cap := policy.concurrencyCap, queueCap := policy.queueCap }
  bandwidth := policy.bandwidth.map .new
  largeBandwidth := (policy.sizeTier.bind (fun tier => tier.large.bandwidth)).map .new

/-- Build an engine; an op without a policy gets the default one. -/
def SimEngine.new (config : Config F) : SimEngine F where
  seed := config.seed
  resources := fun op => .new ((config.ops.get op).getD .default)

/-- The bandwidth limiter of a tier. -/
def OpResources.bandwidthOf (resources : OpResources F) : Tier -> Option (BandwidthLimiter F)
  | .base => resources.bandwidth
  | .large => resources.largeBandwidth

/-- Pick the effective profiles for a call: the large tier for a read or write
whose requested length exceeds the threshold, the base policy otherwise. -/
def selectTier (resources : OpResources F) (op : FsOp) (requestedLen : Nat) : TierChoice F :=
  let base : TierChoice F :=
    { tier := .base
      latency := resources.policy.latency
      faults := resources.policy.faults
      bandwidth := resources.bandwidth }
  if op.isData then
    match resources.policy.sizeTier with
    | some tier =>
        if tier.thresholdBytes < UInt64.ofNat requestedLen then
          { tier := .large
            latency := tier.large.latency
            faults := tier.large.faults
            bandwidth := resources.largeBandwidth }
        else base
    | none => base
  else base

end Construction

/-- What an admitted call has drawn. -/
structure Served where
  queueWaitUs : UInt64
  fault : Option Int
  latencyUs : UInt64
  deriving DecidableEq, Repr

/-- How far a call has come.  Once it has emitted its event, a call carries
what it had drawn, unless it was refused. -/
inductive Progress (T : Type) where
  | idle
  | started (start : Nat)
  | sequenced (start : Nat) (seq : UInt64)
  | sampled (start : Nat) (seq : UInt64) (served : Served)
  | sleeping (start : Nat) (seq : UInt64) (served : Served) (bandwidthDelay : Duration)
      (sleepFor : Duration) (since : Nat)
  | ready (start : Nat) (seq : UInt64) (served : Served) (bandwidthDelay : Duration)
  | executed (start : Nat) (seq : UInt64) (served : Served) (bandwidthDelay : Duration)
      (result : Except FsError T)
  | emitted (seq : UInt64) (served : Option Served) (result : Except FsError T)
      (totalUs : UInt64)
  | recorded (seq : UInt64) (served : Served) (result : Except FsError T)
  | returned (seq : UInt64) (served : Option Served) (result : Except FsError T)
  | unwinding (seq : UInt64) (served : Served)
  | panicked (seq : UInt64) (served : Served)

/-- The calls to make: their contexts and what their bodies return. -/
structure Workload (Call T : Type) where
  ctx : Call -> OpContext
  body : Call -> Except FsError T

/-- The mutable state of an engine with its calls.  The names of the callers
in the event log, the order in which sequence numbers were taken and the count
of body runs are kept for the statements only. -/
structure EngineState (F Call T : Type) where
  seq : UInt64
  limiters : FsOp -> LimiterSystem Call
  buckets : FsOp -> Tier -> BucketState F
  events : List (Call × Event)
  metrics : HistogramRecorder
  progress : Call -> Progress T
  issued : List Call
  bodyRuns : Call -> Nat

/-- The scheduling choices, with the clock readings made in the step. -/
inductive EngineLabel (Call : Type) where
  | start (call : Call) (now : Nat)
  | fetchAdd (call : Call)
  | acquire (call : Call) (now : Nat)
  | spurious (call : Call)
  | wake (call : Call) (now : Nat)
  | sample (call : Call)
  | reserve (call : Call) (now : Nat)
  | slept (call : Call) (now : Nat)
  | execute (call : Call)
  | emit (call : Call) (now : Nat) (unixNanos : Nat)
  | record (call : Call)
  | drop (call : Call) (notifies : Option Call)
  deriving DecidableEq, Repr

/-- Microseconds between two readings, as `as_micros() as u64`. -/
def elapsedUs (start now : Nat) : UInt64 := UInt64.ofNat ((now - start) / 1000)

/-- Outcome and errno of a result. -/
def classify {T : Type} : Except FsError T -> Outcome × Option Int
  | .ok _ => (.ok, none)
  | .error err => (.error, some err.asErrno)

namespace Progress

variable {T : Type}

/-- The sleep is the latency plus the bandwidth delay.  Where the sum does not
fit a `Duration`, the addition panics and the call unwinds. -/
def afterReserve (start : Nat) (seq : UInt64) (served : Served) (bandwidthDelay : Duration)
    (now : Nat) : Progress T :=
  match (Duration.fromMicros served.latencyUs).add bandwidthDelay with
  | some sleepFor => sleeping start seq served bandwidthDelay sleepFor now
  | none => unwinding seq served

/-- After its metric a refused call returns; an admitted one still has its slot. -/
def afterRecord (seq : UInt64) (result : Except FsError T) : Option Served -> Progress T
  | some served => recorded seq served result
  | none => returned seq none result

end Progress

namespace SimEngine

variable {F Call T : Type} [F64 F] [Fintype Call] [DecidableEq Call]
variable (engine : SimEngine F) (lib : SamplerLib F) (load : Workload Call T)

/-- The sampling key of a call. -/
def sampleKey (ctx : OpContext) (seq : UInt64) : SampleKey where
  seed := engine.seed
  op := ctx.op
  ino := ctx.ino
  offset := ctx.offset
  len := UInt32.ofNat (min ctx.len (2 ^ 32 - 1))
  seq := seq

/-- The profiles a call is routed to. -/
def choice (ctx : OpContext) : TierChoice F :=
  selectTier (engine.resources ctx.op) ctx.op ctx.requestedLen

/-- What a call draws once it holds a slot. -/
def draw (ctx : OpContext) (seq : UInt64) (queueWait : Nat) : Served where
  queueWaitUs := UInt64.ofNat (queueWait / 1000)
  fault := sampleFault lib (engine.choice ctx).faults (engine.sampleKey ctx seq)
  latencyUs := sampleLatencyUs lib (engine.choice ctx).latency (engine.sampleKey ctx seq)

/-- The bandwidth delay of a call and the bucket after it.  Only reads and
writes with a configured profile reserve anything. -/
def bandwidthDelay (ctx : OpContext) (now : Nat) (bucket : BucketState F) :
    BucketState F × Duration :=
  match (engine.choice ctx).bandwidth with
  | some limiter =>
      if ctx.op.isData then limiter.reserve (UInt64.ofNat ctx.len) now bucket
      else (bucket, .zero)
  | none => (bucket, .zero)

/-- The event of a call. -/
def event (ctx : OpContext) (seq : UInt64) (served : Option Served) (bandwidthDelay : Duration)
    (result : Except FsError T) (totalUs : UInt64) (unixNanos : Nat) : Event where
  tsUnixNanos := unixNanos
  seq := seq
  op := ctx.op
  ino := ctx.ino
  offset := ctx.offset
  len := ctx.len
  outcome := (classify result).1
  errno := (classify result).2
  queueWaitUs := (served.map (fun served => served.queueWaitUs)).getD 0
  injectedLatencyUs := (served.map (fun served => served.latencyUs)).getD 0
  bandwidthDelayUs := bandwidthDelay.asMicrosU64
  totalDurationUs := totalUs

/-- The result of a call: the injected fault, or what the body returns. -/
def reply (served : Served) (body : Except FsError T) : Except FsError T :=
  match served.fault with
  | some errno => .error (.errno errno)
  | none => body

/-- The engine before any call. -/
def initial (created : Nat) : EngineState F Call T where
  seq := 0
  limiters := fun _ => .initial
  buckets := fun op tier =>
    match (engine.resources op).bandwidthOf tier with
    | some limiter => limiter.initial created
    | none => { tokens := F64.literal 0, last := created, totalBytesReserved := 0,
                totalThrottled := 0 }
  events := []
  metrics := .new
  progress := fun _ => .idle
  issued := []
  bodyRuns := fun _ => 0

end SimEngine

namespace EngineState

variable {F Call T : Type} [DecidableEq Call]

def setProgress (state : EngineState F Call T) (call : Call) (progress : Progress T) :
    EngineState F Call T :=
  { state with progress := Function.update state.progress call progress }

def setLimiter (state : EngineState F Call T) (op : FsOp) (limiter : LimiterSystem Call) :
    EngineState F Call T :=
  { state with limiters := Function.update state.limiters op limiter }

def setBucket (state : EngineState F Call T) (op : FsOp) (tier : Tier) (bucket : BucketState F) :
    EngineState F Call T :=
  { state with
    buckets := Function.update state.buckets op (Function.update (state.buckets op) tier bucket) }

end EngineState

namespace SimEngine

variable {F Call T : Type} [F64 F] [Fintype Call] [DecidableEq Call]
variable (engine : SimEngine F) (lib : SamplerLib F) (load : Workload Call T)

/-- Make a step of the limiter of a call's op. -/
def limiterStep (state : EngineState F Call T) (call : Call) (label : LimiterLabel Call) :
    Option (EngineState F Call T) :=
  ((state.limiters (load.ctx call).op).step (engine.resources (load.ctx call).op).limiter
    label).map (state.setLimiter (load.ctx call).op)

/-- One scheduling step. -/
def step (state : EngineState F Call T) : EngineLabel Call -> Option (EngineState F Call T)
  | .start call now =>
      match state.progress call with
      | .idle => some (state.setProgress call (.started now))
      | _ => none
  | .fetchAdd call =>
      match state.progress call with
      | .started start =>
          some { state.setProgress call (.sequenced start state.seq) with
            seq := state.seq + 1
            issued := state.issued ++ [call] }
      | _ => none
  | .acquire call now =>
      match state.progress call with
      | .sequenced _ _ => engine.limiterStep load state call (.acquire call now)
      | _ => none
  | .spurious call =>
      match state.progress call with
      | .sequenced _ _ => engine.limiterStep load state call (.spurious call)
      | _ => none
  | .wake call now =>
      match state.progress call with
      | .sequenced _ _ => engine.limiterStep load state call (.wake call now)
      | _ => none
  | .sample call =>
      match state.progress call, (state.limiters (load.ctx call).op).phase call with
      | .sequenced start seq, .holding queueWait =>
          some (state.setProgress call
            (.sampled start seq (engine.draw lib (load.ctx call) seq queueWait)))
      | _, _ => none
  | .reserve call now =>
      match state.progress call with
      | .sampled start seq served =>
          let ctx := load.ctx call
          let tier := (engine.choice ctx).tier
          let (bucket, delay) := engine.bandwidthDelay ctx now (state.buckets ctx.op tier)
          some ((state.setBucket ctx.op tier bucket).setProgress call
            (.afterReserve start seq served delay now))
      | _ => none
  | .slept call _ =>
      match state.progress call with
      | .sleeping start seq served delay _ _ =>
          some (state.setProgress call (.ready start seq served delay))
      | _ => none
  | .execute call =>
      match state.progress call with
      | .ready start seq served delay =>
          some { state.setProgress call
              (.executed start seq served delay (reply served (load.body call))) with
            bodyRuns := Function.update state.bodyRuns call
              (state.bodyRuns call + if served.fault.isNone then 1 else 0) }
      | _ => none
  | .emit call now unixNanos =>
      let ctx := load.ctx call
      match state.progress call with
      | .executed start seq served delay result =>
          let totalUs := elapsedUs start now
          some { state.setProgress call (.emitted seq (some served) result totalUs) with
            events := state.events ++
              [(call, event ctx seq (some served) delay result totalUs unixNanos)] }
      | .sequenced start seq =>
          match (state.limiters ctx.op).phase call with
          | .refused err =>
              let totalUs := elapsedUs start now
              let result : Except FsError T := .error (.errno err.asErrno)
              some { state.setProgress call (.emitted seq none result totalUs) with
                events := state.events ++
                  [(call, event ctx seq none .zero result totalUs unixNanos)] }
          | _ => none
      | _ => none
  | .record call =>
      match state.progress call with
      | .emitted seq served result totalUs =>
          some { state.setProgress call (.afterRecord seq result served) with
            metrics := state.metrics.record (load.ctx call).op totalUs
              ((classify result).1 = .error) }
      | _ => none
  | .drop call notifies =>
      match state.progress call with
      | .recorded seq served result =>
          (engine.limiterStep load state call (.drop call notifies)).map
            (fun next => next.setProgress call (.returned seq (some served) result))
      | .unwinding seq served =>
          (engine.limiterStep load state call (.drop call notifies)).map
            (fun next => next.setProgress call (.panicked seq served))
      | _ => none

/-- The transition system of an engine and a finite type of calls. -/
def system (created : Nat) :
    Transition.System (EngineState F Call T) (EngineLabel Call) where
  init := engine.initial created
  step := engine.step lib load

end SimEngine

end Fusecraft
