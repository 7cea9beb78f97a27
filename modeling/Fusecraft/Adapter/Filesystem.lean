import Fusecraft.Engine.Answers
import Fusecraft.Engine.Halting
import Fusecraft.Engine.Sequential
import Fusecraft.Adapter.Read
import Fusecraft.Adapter.Readdir

namespace Fusecraft

open FlatObjectNamespace Transition

/-!
# The handlers of the FUSE adapter

Each of the eleven handlers builds a context, runs a closure through the
engine, and turns the result into a reply.  The closures of the handlers are
one function of the request, and so are the contexts and the replies.

What the kernel would be told by a filesystem that never fails is the reply to
what the closure yields.  A mounted filesystem gives this reply, or an errno of
a fault rule, or EAGAIN.
-/

/-- A request of the kernel, with what its handler reads of it.  A directory
read comes with the room of its reply buffer. -/
inductive KernelRequest where
  | lookup (parent : UInt64) (name : List UInt8)
  | getattr (ino : UInt64)
  | open (ino : UInt64)
  | read (request : ReadRequest)
  | write (ino offset : UInt64) (data : List UInt8)
  | flush (ino : UInt64)
  | release (ino : UInt64)
  | fsync (ino : UInt64)
  | readdir (ino offset : UInt64) (room : Nat)
  | statfs (ino : UInt64)
  | access (ino : UInt64)
  deriving DecidableEq, Repr

namespace KernelRequest

/-- What the closure of a handler yields. -/
def Output : KernelRequest -> Type
  | lookup _ _ => FileAttrSpec
  | getattr _ => FileAttrSpec
  | read _ => List UInt8
  | write _ _ _ => UInt32
  | readdir _ _ _ => List DirEntry
  | _ => Unit

/-- The op that a handler runs. -/
def op : KernelRequest -> FsOp
  | lookup _ _ => .lookup
  | getattr _ => .getAttr
  | .open _ => .open
  | read _ => .read
  | write _ _ _ => .write
  | flush _ => .flush
  | release _ => .release
  | fsync _ => .fsync
  | readdir _ _ _ => .readdir
  | statfs _ => .statfs
  | access _ => .access

/-- The inode that a handler reports. -/
def inode : KernelRequest -> UInt64
  | lookup parent _ => parent
  | getattr ino => ino
  | .open ino => ino
  | read request => request.ino
  | write ino _ _ => ino
  | flush ino => ino
  | release ino => ino
  | fsync ino => ino
  | readdir ino _ _ => ino
  | statfs ino => ino
  | access ino => ino

end KernelRequest

/-- File attributes as the kernel gets them. -/
structure FileAttr where
  ino : Nat
  size : UInt64
  blocks : UInt64
  atime : Nat
  mtime : Nat
  ctime : Nat
  crtime : Nat
  kind : FileKind
  perm : UInt16
  nlink : Nat
  uid : Nat
  gid : Nat
  rdev : Nat
  blksize : Nat
  flags : Nat
  deriving DecidableEq, Repr

/-- `u64::div_ceil`. -/
def divCeil (value divisor : UInt64) : UInt64 :=
  if 0 < value % divisor then value / divisor + 1 else value / divisor

/-- Convert the attributes of the namespace.  The creation time is the epoch. -/
def attrFromSpec (spec : FileAttrSpec) : FileAttr where
  ino := spec.ino
  size := spec.size
  blocks := divCeil spec.size 512
  atime := spec.mtime
  mtime := spec.mtime
  ctime := spec.mtime
  crtime := 0
  kind := spec.kind
  perm := UInt16.ofNat spec.mode
  nlink := spec.nlink
  uid := spec.uid
  gid := spec.gid
  rdev := 0
  blksize := 4096
  flags := 0

/-- A reply to the kernel. -/
inductive Reply where
  | entry (ttl : Duration) (attr : FileAttr) (generation : UInt64)
  | attr (ttl : Duration) (attr : FileAttr)
  | opened (fh : UInt64) (flags : UInt32)
  | data (bytes : List UInt8)
  | written (size : UInt32)
  | ok
  | directory (entries : List DirEntry)
  | statfs (blocks bfree bavail files ffree : UInt64) (bsize namelen frsize : UInt32)
  | error (errno : Int)
  deriving DecidableEq, Repr

/-- The errno of a reply, if it is an error. -/
def Reply.errno? : Reply -> Option Int
  | error errno => some errno
  | _ => none

/-- How long the kernel may cache attributes and entries. -/
structure Ttls where
  attrTtl : Duration
  entryTtl : Duration

/-- One second each. -/
def Ttls.default : Ttls where
  attrTtl := .fromMicros 1000000
  entryTtl := .fromMicros 1000000

/-- `Option::ok_or`. -/
def okOr {Value : Type} (value : Option Value) (err : FsError) : Except FsError Value :=
  match value with
  | some value => .ok value
  | none => .error err

namespace FaultFs

section Handlers

variable {F : Type} (fs : FaultFs F)

/-- The context of a handler. -/
def context : KernelRequest -> OpContext
  | .lookup parent _ => .metadata .lookup parent
  | .getattr ino => .metadata .getAttr ino
  | .open ino => .metadata .open ino
  | .read request => readContext fs.content request
  | .write ino offset data => .data .write ino offset data.length
  | .flush ino => .metadata .flush ino
  | .release ino => .metadata .release ino
  | .fsync ino => .metadata .fsync ino
  | .readdir ino _ _ => .metadata .readdir ino
  | .statfs ino => .metadata .statfs ino
  | .access ino => .metadata .access ino

/-- The closure of a handler. -/
def closure : (request : KernelRequest) -> Except FsError request.Output
  | .lookup parent name => do
      let ino <- okOr (fs.ns.lookup parent.toNat name) (.errno Libc.enoent)
      okOr (fs.ns.attr ino) (.errno Libc.enoent)
  | .getattr ino => okOr (fs.ns.attr ino.toNat) (.errno Libc.enoent)
  | .open _ => .ok ()
  | .read request => readBody fs.content request
  | .write ino offset data => (DeterministicContent.writeAt ino offset data).map UInt32.ofNat
  | .flush _ => .ok ()
  | .release _ => .ok ()
  | .fsync _ => .ok ()
  | .readdir ino offset _ => fs.ns.listing ino.toNat offset.toNat
  | .statfs _ => .ok ()
  | .access ino => okOr ((fs.ns.attr ino.toNat).map (fun _ => ())) (.errno Libc.enoent)

variable (ttls : Ttls) (protocol : StopProtocol) (size : DirEntry -> Nat)

/-- What a handler tells the kernel. -/
def reply : (request : KernelRequest) -> Except FsError request.Output -> Reply
  | _, .error err => .error err.asErrno
  | .lookup _ _, .ok spec => .entry ttls.entryTtl (attrFromSpec spec) 0
  | .getattr _, .ok spec => .attr ttls.attrTtl (attrFromSpec spec)
  | .open _, .ok _ => .opened 0 0
  | .read _, .ok bytes => .data bytes
  | .write _ _ _, .ok written => .written written
  | .flush _, .ok _ => .ok
  | .release _, .ok _ => .ok
  | .fsync _, .ok _ => .ok
  | .readdir _ _ room, .ok entries =>
      .directory (({ entries := [], room := room } : ReplyDirectory).fill protocol size
        entries).entries
  | .statfs _, .ok _ => .statfs 1000000 1000000 1000000 1000000 1000000 4096 255 4096
  | .access _, .ok _ => .ok

/-- What the kernel is told where nothing fails. -/
def ideal (request : KernelRequest) : Reply :=
  reply ttls protocol size request (fs.closure request)

end Handlers

/-- The calls that the handlers make for a family of requests.  A result is
tagged with its request. -/
def workload {F Call : Type} (fs : FaultFs F) (requests : Call -> KernelRequest) :
    Workload Call (Sigma KernelRequest.Output) where
  ctx := fun call => fs.context (requests call)
  body := fun call => (fs.closure (requests call)).map (Sigma.mk (requests call))

variable {F : Type}

theorem op_context (fs : FaultFs F) (request : KernelRequest) :
    (fs.context request).op = request.op := by
  cases request <;> rfl

theorem ino_context (fs : FaultFs F) (request : KernelRequest) :
    (fs.context request).ino = request.inode := by
  cases request <;> rfl

/-- A reply is an error just if the result is. -/
theorem errno?_reply (ttls : Ttls) (protocol : StopProtocol) (size : DirEntry -> Nat)
    (request : KernelRequest) (output : Except FsError request.Output) :
    (reply ttls protocol size request output).errno? = (classify output).2 := by
  cases output with
  | error err => cases request <;> rfl
  | ok output => cases request <;> rfl

/-- A filled reply buffer, or an error, as it is told. -/
def told : Except Int ReplyDirectory -> Reply
  | .ok filled => .directory filled.entries
  | .error errno => .error errno

/-- The two readings of a directory request are one: the loop that a client
drives tells it what the handler replies. -/
theorem reply_readdir (fs : FaultFs F) (ttls : Ttls) (protocol : StopProtocol)
    (size : DirEntry -> Nat) (ino offset : UInt64) (room : Nat) :
    fs.ideal ttls protocol size (.readdir ino offset room) =
      told (readdir protocol size fs.ns none ino.toNat offset.toNat room) := by
  have listed : fs.ns.readdir collect ino.toNat offset.toNat [] =
      fs.ns.listing ino.toNat offset.toNat := rfl
  change reply ttls protocol size (.readdir ino offset room)
    (fs.ns.listing ino.toNat offset.toNat) = _
  unfold readdir
  simp only
  rw [listed]
  cases fs.ns.listing ino.toNat offset.toNat <;> rfl

theorem reply_error (ttls : Ttls) (protocol : StopProtocol) (size : DirEntry -> Nat)
    (request : KernelRequest) (err : FsError) :
    reply ttls protocol size request (.error err) = .error err.asErrno := by
  cases request <;> rfl

section Replies

variable [F64 F] {Call : Type} [Fintype Call] [DecidableEq Call]

/-- A mounted filesystem tells the kernel what one without faults would, or an
error.  In every run of any requests, a call that has returned replies with the
ideal reply, with the errno of a rule for its op in the tier that it was routed
to, or with EAGAIN where it was refused.  The one event of the call names the
op and the inode of the request, and reports an error just if the kernel is
told one, and then the same one. -/
theorem replies_ideal_or_injected (fs : FaultFs F) (lib : SamplerLib F) (ttls : Ttls)
    (protocol : StopProtocol) (size : DirEntry -> Nat) (requests : Call -> KernelRequest)
    (created : Nat) (state : EngineState F Call (Sigma KernelRequest.Output))
    (reached : (fs.engine.system lib (fs.workload requests) created).Reachable state)
    (call : Call) (seq : UInt64) (served : Option Served)
    (result : Except FsError (Sigma KernelRequest.Output))
    (returned : state.progress call = .returned seq served result) :
    exists output : Except FsError (requests call).Output,
      result = output.map (Sigma.mk (requests call)) ∧
      (reply ttls protocol size (requests call) output =
          fs.ideal ttls protocol size (requests call) ∨
        (exists rule, rule ∈ (fs.engine.choice (fs.context (requests call))).faults ∧
          rule.op = (requests call).op ∧
          reply ttls protocol size (requests call) output = .error rule.errno) ∨
        (served = none ∧
          reply ttls protocol size (requests call) output = .error Libc.eagain)) ∧
      exists event, state.entriesOf call = [(call, event)] ∧ event.op = (requests call).op ∧
        event.ino = (requests call).inode ∧
        event.errno = (reply ttls protocol size (requests call) output).errno? ∧
        (event.outcome = .error ↔ event.errno.isSome = true) := by
  rcases (EngineState.returned_spec reached returned).2 with
    ⟨event, only, -, op, ino, -, -, outcome, errno, -⟩
  have reports : forall output : Except FsError (requests call).Output,
      result = output.map (Sigma.mk (requests call)) ->
      exists event, state.entriesOf call = [(call, event)] ∧ event.op = (requests call).op ∧
        event.ino = (requests call).inode ∧
        event.errno = (reply ttls protocol size (requests call) output).errno? ∧
        (event.outcome = .error ↔ event.errno.isSome = true) := by
    intro output same
    have classified : classify result = classify output := by
      rw [same]
      cases output <;> rfl
    refine ⟨event, only, op.trans (fs.op_context _), ino.trans (fs.ino_context _), ?_, ?_⟩
    · rw [errno?_reply, errno, classified]
    · rw [outcome, errno]
      cases result <;> simp [classify]
  cases EngineState.answered_of_returned reached returned with
  | refused =>
      refine ⟨.error (.errno Libc.eagain), rfl, Or.inr (Or.inr ⟨rfl, ?_⟩), reports _ rfl⟩
      exact reply_error ttls protocol size _ _
  | faulted drawn rule member own fires =>
      refine ⟨.error (.errno rule.errno), rfl, Or.inr (Or.inl ⟨rule, member, ?_, ?_⟩),
        reports _ rfl⟩
      · exact own.trans (fs.op_context _)
      · exact reply_error ttls protocol size _ _
  | ran drawn quiet => exact ⟨fs.closure (requests call), rfl, Or.inl rfl, reports _ rfl⟩

/-- A lookup and a `getattr` under the steady policy. -/
def browsing : Bool -> KernelRequest
  | false => .lookup 1 objectsName
  | true => .getattr 2

/-- Both can be answered. -/
theorem exists_browsing :
    exists state : EngineState Rat Bool (Sigma KernelRequest.Output),
      ((mounted (Config.reading (.steady 1)) 0 0 0).engine.system .silent
        ((mounted (Config.reading (.steady 1)) 0 0 0).workload browsing) 0).Reachable state ∧
      forall call, exists seq served result,
        state.progress call = .returned seq served result := by
  have served : exists state : EngineState Rat Bool (Sigma KernelRequest.Output),
      ((mounted (Config.reading (.steady 1)) 0 0 0).engine.system .silent
        ((mounted (Config.reading (.steady 1)) 0 0 0).workload browsing) 0).ReachableBy
          EngineState.Sequential state ∧
      (forall call, (state.progress call).atRest = true) ∧ state.issued = [false, true] :=
    EngineState.exists_sequential (SimEngine.cap_pos_of_valid (by decide +kernel))
      (SimEngine.steady_unlimited 1) [false, true] (by decide)
  rcases served with ⟨state, reached, rest, issued⟩
  refine ⟨state, reached.reachable, fun call => ?_⟩
  refine EngineState.returned_of_issued (EngineState.numbered_of_reachable reached) ?_ (rest call)
  rw [issued]
  revert call
  decide

/-- The two replies and the two events agree. -/
theorem replies_ideal_or_injected_browsing :
    exists state : EngineState Rat Bool (Sigma KernelRequest.Output),
      forall call, exists (output : Except FsError (browsing call).Output) (event : Event),
        state.entriesOf call = [(call, event)] ∧ event.op = (browsing call).op ∧
        event.errno = (reply .default .refuses (fun _ => 1) (browsing call) output).errno? := by
  rcases exists_browsing with ⟨state, reached, returned⟩
  refine ⟨state, fun call => ?_⟩
  rcases returned call with ⟨seq, served, result, ended⟩
  rcases replies_ideal_or_injected (mounted (Config.reading (.steady 1)) 0 0 0) .silent .default
    .refuses (fun _ => 1) browsing 0 state reached call seq served result ended with
    ⟨output, -, -, event, only, op, -, errno, -⟩
  exact ⟨output, event, only, op, errno⟩

/-- Without faults the simulator is transparent.  Where no rule concerns the
ops of the requests, and the slots and queue places of each op are enough for
its requests, every run can be continued until every request is answered or
has panicked, and in every state of every run those answered were told the
ideal reply. -/
theorem replies_ideal_without_faults (fs : FaultFs F) (lib : SamplerLib F) (ttls : Ttls)
    (protocol : StopProtocol) (size : DirEntry -> Nat) (requests : Call -> KernelRequest)
    (created : Nat) (positive : forall op, 0 < (fs.engine.resources op).limiter.cap)
    (few : forall op, (Finset.univ.filter (fun call => (requests call).op = op)).card ≤
      (fs.engine.resources op).limiter.cap + (fs.engine.resources op).limiter.queueCap)
    (unfaulted : forall call rule,
      rule ∈ (fs.engine.choice (fs.context (requests call))).faults ->
        rule.op ≠ (requests call).op)
    (state : EngineState F Call (Sigma KernelRequest.Output))
    (reached : (fs.engine.system lib (fs.workload requests) created).Reachable state) :
    (forall call seq served result, state.progress call = .returned seq served result ->
      exists output : Except FsError (requests call).Output,
        result = output.map (Sigma.mk (requests call)) ∧
        reply ttls protocol size (requests call) output =
          fs.ideal ttls protocol size (requests call)) ∧
    exists labels finish,
      (fs.engine.system lib (fs.workload requests) created).run state labels = some finish ∧
      forall call, (finish.progress call).isOver = true := by
  constructor
  · intro call seq served result returned
    refine ⟨fs.closure (requests call), ?_, rfl⟩
    refine EngineState.ran_of_returned positive (fun op => ?_) reached (fun rule member => ?_)
      returned
    · have same : forall call, ((fs.workload requests).ctx call).op = (requests call).op :=
        fun call => fs.op_context _
      simp only [same]
      exact few op
    · rw [show ((fs.workload requests).ctx call).op = (requests call).op from fs.op_context _]
      exact unfaulted call rule member
  · rcases SimEngine.exists_over reached with ⟨labels, finish, -, runs, gone⟩
    exact ⟨labels, finish, runs, gone⟩

/-- The `getattr` shows the directory that the lookup finds. -/
theorem replies_ideal_without_faults_browsing :
    exists (state : EngineState Rat Bool (Sigma KernelRequest.Output)) (seq : UInt64)
      (served : Option Served) (output : Except FsError (browsing true).Output),
      state.progress true = .returned seq served (output.map (Sigma.mk (browsing true))) ∧
      reply .default .refuses (fun _ => 1) (browsing true) output =
        .attr Ttls.default.attrTtl
          (attrFromSpec ((mounted (Config.reading (.steady 1)) 0 0 0).ns.dirAttr objectsIno)) := by
  rcases exists_browsing with ⟨state, reached, returned⟩
  rcases returned true with ⟨seq, served, result, ended⟩
  rcases (replies_ideal_without_faults (mounted (Config.reading (.steady 1)) 0 0 0) .silent
    .default .refuses (fun _ => 1) browsing 0 (SimEngine.cap_pos_of_valid (by decide +kernel))
    (by decide +kernel) (fun call rule member => (by cases call <;> cases member))
    state reached).1 true seq served result ended with ⟨output, rfl, told⟩
  exact ⟨state, seq, served, output, ended, told⟩

end Replies

/-! ## The replies describe one tree -/

/-- Whole blocks, and no more than are needed. -/
theorem divCeil_toNat (value : UInt64) :
    value.toNat ≤ 512 * (divCeil value 512).toNat ∧
      512 * (divCeil value 512).toNat < value.toNat + 512 := by
  have bound := value.toNat_lt
  have split : (0 < value % 512) ↔ 0 < value.toNat % 512 := by
    rw [UInt64.lt_iff_toNat_lt, UInt64.toNat_mod]
    exact Iff.rfl
  have quotient : (value / 512).toNat = value.toNat / 512 := UInt64.toNat_div ..
  unfold divCeil
  by_cases rest : 0 < value % 512
  · have next : (value / 512 + 1).toNat = value.toNat / 512 + 1 := by
      rw [UInt64.toNat_add, quotient]
      exact Nat.mod_eq_of_lt (show value.toNat / 512 + 1 < 2 ^ 64 by omega)
    rw [if_pos rest, next]
    have rest := split.mp rest
    omega
  · rw [if_neg rest, quotient]
    have rest := mt split.mpr rest
    omega

section Tree

variable {fs : FaultFs F} {ttls : Ttls} {protocol : StopProtocol} {size : DirEntry -> Nat}

theorem ideal_getattr (fs : FaultFs F) (ttls : Ttls) (protocol : StopProtocol)
    (size : DirEntry -> Nat) (ino : UInt64) :
    fs.ideal ttls protocol size (.getattr ino) =
      match fs.ns.attr ino.toNat with
      | some spec => .attr ttls.attrTtl (attrFromSpec spec)
      | none => .error Libc.enoent := by
  change reply ttls protocol size (.getattr ino)
    (okOr (fs.ns.attr ino.toNat) (.errno Libc.enoent)) = _
  cases fs.ns.attr ino.toNat <;> rfl

theorem ideal_access (fs : FaultFs F) (ttls : Ttls) (protocol : StopProtocol)
    (size : DirEntry -> Nat) (ino : UInt64) :
    fs.ideal ttls protocol size (.access ino) =
      if (fs.ns.attr ino.toNat).isSome = true then .ok else .error Libc.enoent := by
  change reply ttls protocol size (.access ino)
    (okOr ((fs.ns.attr ino.toNat).map (fun _ => ())) (.errno Libc.enoent)) = _
  cases fs.ns.attr ino.toNat <;> rfl

/-- A child that a lookup finds has attributes. -/
theorem ideal_lookup (fs : FaultFs F) (ttls : Ttls) (protocol : StopProtocol)
    (size : DirEntry -> Nat) (parent : UInt64) (name : List UInt8) :
    (exists ino spec, fs.ns.lookup parent.toNat name = some ino ∧ fs.ns.attr ino = some spec ∧
      fs.ideal ttls protocol size (.lookup parent name) =
        .entry ttls.entryTtl (attrFromSpec spec) 0) ∨
    fs.ns.lookup parent.toNat name = none ∧
      fs.ideal ttls protocol size (.lookup parent name) = .error Libc.enoent := by
  cases found : fs.ns.lookup parent.toNat name with
  | none =>
      refine Or.inr ⟨rfl, ?_⟩
      simp only [ideal, closure, found]
      rfl
  | some ino =>
      have known : (fs.ns.attr ino).isSome = true := by
        rw [fs.ns.attr_isSome]
        rcases fs.ns.lookup_eq_some.mp found with ⟨-, -, rfl⟩ | ⟨-, n, inRange, -, rfl⟩
        · exact Or.inl (Or.inr rfl)
        · exact Or.inr ⟨n, inRange, rfl⟩
      rcases Option.isSome_iff_exists.mp known with ⟨spec, attributes⟩
      refine Or.inl ⟨ino, spec, rfl, attributes, ?_⟩
      simp only [ideal, closure, found]
      change reply ttls protocol size (.lookup parent name)
        (okOr (fs.ns.attr ino) (.errno Libc.enoent)) = _
      rw [attributes]
      rfl

/-- The attributes of an inode carry its number. -/
theorem ino_of_attr {ns : FlatObjectNamespace} {ino : Nat} {spec : FileAttrSpec}
    (found : ns.attr ino = some spec) :
    spec.ino = ino ∧ ino < 2 ^ 64 ∧ (UInt16.ofNat spec.mode).toNat = spec.mode := by
  rcases (ns.attr_isSome ino).mp (by rw [found]; rfl) with directory | ⟨n, inRange, rfl⟩
  · rw [ns.attr_dir directory, Option.some_inj] at found
    subst found
    rcases directory with rfl | rfl <;> exact ⟨rfl, by decide, rfl⟩
  · have small := ns.index_lt inRange
    rw [ns.attr_file inRange, Option.some_inj] at found
    subst found
    refine ⟨rfl, ?_, rfl⟩
    unfold firstFileIno
    omega

/-- What a lookup finds is listed under its name. -/
theorem listed_of_lookup {ns : FlatObjectNamespace} {parent ino : Nat} {name : List UInt8}
    {spec : FileAttrSpec} (found : ns.lookup parent name = some ino)
    (attributes : ns.attr ino = some spec) :
    exists listing, ns.listing parent 0 = .ok listing ∧
      exists entry, entry ∈ listing ∧ entry.name = name ∧ entry.ino = ino ∧
        entry.kind = spec.kind := by
  have child : ¬ IsDot name := by
    rcases ns.lookup_eq_some.mp found with ⟨-, rfl, -⟩ | ⟨-, n, inRange, rfl, -⟩
    · decide
    · exact ns.indexToName_not_dot inRange
  rcases (ns.lookup_iff_listed parent name ino child).mp found with
    ⟨listing, entry, lists, member, rfl, named⟩
  rcases ns.eq_entries_of_listing lists with ⟨directory, rfl⟩
  rcases ns.attr_of_mem directory member with ⟨known, same, -, kind⟩
  rw [attributes, Option.some_inj] at same
  subst same
  exact ⟨_, lists, entry, member, named, rfl, kind.symm⟩

/-- `readdir` answers at every offset and with any room just for the inodes whose
attributes are those of a directory. -/
theorem ideal_readdir_iff (fs : FaultFs F) (ttls : Ttls) (protocol : StopProtocol)
    (size : DirEntry -> Nat) (ino offset : UInt64) (room : Nat) :
    (exists entries, fs.ideal ttls protocol size (.readdir ino offset room) =
        .directory entries) ↔
      exists attr, fs.ideal ttls protocol size (.getattr ino) = .attr ttls.attrTtl attr ∧
        attr.kind = .dir := by
  have shape : fs.ideal ttls protocol size (.readdir ino offset room) =
      reply ttls protocol size (.readdir ino offset room)
        (fs.ns.listing ino.toNat offset.toNat) := rfl
  rw [shape, ideal_getattr]
  constructor
  · rintro ⟨entries, told⟩
    have directory : IsDirIno ino.toNat := by
      by_contra other
      rw [fs.ns.listing_of_not_dir other] at told
      cases told
    rcases (fs.ns.attr_kind_dir ino.toNat).mpr directory with ⟨spec, found, kind⟩
    rw [found]
    exact ⟨attrFromSpec spec, rfl, kind⟩
  · rintro ⟨attr, told, kind⟩
    cases found : fs.ns.attr ino.toNat with
    | none =>
        rw [found] at told
        cases told
    | some spec =>
        rw [found] at told
        cases told
        rw [fs.ns.listing_of_dir ((fs.ns.attr_kind_dir ino.toNat).mp ⟨spec, found, kind⟩)]
        exact ⟨_, rfl⟩

/-- The replies of a filesystem that never fails describe one tree, for every
configuration.  A lookup tells the attributes that `getattr` tells for the
inode found, which the listing of the parent shows under this name with this
kind, or that there is no such file, and then the listing has no such name.
`access` succeeds just where there are attributes, and `readdir` answers, at every
offset, just where they are those of a directory.  An inode's mode is not
truncated, and its blocks cover its size without a block to spare; what is read
from a file ends at that size. -/
theorem handlers_describe_one_tree (config : Config F) [F64 F] (uid gid ctime : Nat) (ttls : Ttls)
    (protocol : StopProtocol) (size : DirEntry -> Nat) :
    let fs := mounted config uid gid ctime
    (forall parent name,
      (exists attr, fs.ideal ttls protocol size (.lookup parent name) =
          .entry ttls.entryTtl attr 0 ∧
        fs.ideal ttls protocol size (.getattr (UInt64.ofNat attr.ino)) =
          .attr ttls.attrTtl attr ∧
        exists listing, fs.ns.listing parent.toNat 0 = .ok listing ∧
          exists entry, entry ∈ listing ∧ entry.name = name ∧ entry.ino = attr.ino ∧
            entry.kind = attr.kind) ∨
      fs.ideal ttls protocol size (.lookup parent name) = .error Libc.enoent ∧
        forall listing entry, fs.ns.listing parent.toNat 0 = .ok listing -> entry ∈ listing ->
          entry.name = name -> IsDot name) ∧
    (forall ino,
      (fs.ideal ttls protocol size (.access ino) = .ok ∧
        exists attr, fs.ideal ttls protocol size (.getattr ino) = .attr ttls.attrTtl attr) ∨
      fs.ideal ttls protocol size (.access ino) = .error Libc.enoent ∧
        fs.ideal ttls protocol size (.getattr ino) = .error Libc.enoent) ∧
    (forall ino offset room,
      (exists entries, fs.ideal ttls protocol size (.readdir ino offset room) =
          .directory entries) ↔
        exists attr, fs.ideal ttls protocol size (.getattr ino) = .attr ttls.attrTtl attr ∧
          attr.kind = .dir) ∧
    (forall ino ttl attr, fs.ideal ttls protocol size (.getattr ino) = .attr ttl attr ->
      attr.ino = ino.toNat ∧
      (exists spec, fs.ns.attr ino.toNat = some spec ∧ attr.perm.toNat = spec.mode) ∧
      attr.size.toNat ≤ 512 * attr.blocks.toNat ∧
      512 * attr.blocks.toNat < attr.size.toNat + 512 ∧
      (attr.kind = .file -> forall offset length,
        fs.ideal ttls protocol size (.read { ino := ino, offset := offset, size := length }) =
          .data (fs.content.slice ino offset.toNat
            (min (offset.toNat + length.toNat) attr.size.toNat)))) := by
  intro fs
  refine ⟨fun parent name => ?_, fun ino => ?_, ideal_readdir_iff fs ttls protocol size,
    fun ino ttl attr told => ?_⟩
  · rcases ideal_lookup fs ttls protocol size parent name with
      ⟨ino, spec, found, attributes, entry⟩ | ⟨absent, told⟩
    · rcases ino_of_attr attributes with ⟨same, small, -⟩
      have word : (UInt64.ofNat (attrFromSpec spec).ino).toNat = ino := by
        change (UInt64.ofNat spec.ino).toNat = ino
        rw [same, UInt64.toNat_ofNat', Nat.mod_eq_of_lt small]
      have known : fs.ideal ttls protocol size
          (.getattr (UInt64.ofNat (attrFromSpec spec).ino)) =
            .attr ttls.attrTtl (attrFromSpec spec) := by
        rw [ideal_getattr, word, attributes]
      refine Or.inl ⟨attrFromSpec spec, entry, known, ?_⟩
      rcases listed_of_lookup found attributes with ⟨listing, lists, item, member, named, rfl, kind⟩
      exact ⟨listing, lists, item, member, named, same.symm, kind⟩
    · refine Or.inr ⟨told, fun listing entry lists member named => ?_⟩
      by_contra child
      have found := (fs.ns.lookup_iff_listed parent.toNat name entry.ino child).mpr
        ⟨listing, entry, lists, member, rfl, named⟩
      rw [absent] at found
      cases found
  · rw [ideal_access, ideal_getattr]
    cases fs.ns.attr ino.toNat with
    | none => exact Or.inr ⟨rfl, rfl⟩
    | some spec => exact Or.inl ⟨rfl, _, rfl⟩
  · rw [ideal_getattr] at told
    cases found : fs.ns.attr ino.toNat with
    | none =>
        rw [found] at told
        cases told
    | some spec =>
        rw [found] at told
        cases told
        rcases ino_of_attr found with ⟨same, -, mode⟩
        have blocks := divCeil_toNat spec.size
        refine ⟨same, ⟨spec, rfl, mode⟩, blocks.1, blocks.2, fun file offset length => ?_⟩
        have length_eq : spec.size = fs.content.fileLen := size_of_file found file
        have shape : fs.ideal ttls protocol size
            (.read { ino := ino, offset := offset, size := length }) =
              reply ttls protocol size (.read { ino := ino, offset := offset, size := length })
                (readBody fs.content { ino := ino, offset := offset, size := length }) := rfl
        rw [shape, readBody_eq]
        change Reply.data (fs.content.slice ino offset.toNat
          (min (offset.toNat + length.toNat) fs.content.fileLen.toNat)) = _
        rw [← length_eq]
        rfl

end Tree

end FaultFs

end Fusecraft
