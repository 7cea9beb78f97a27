import Fusecraft.Engine.Completion
import Fusecraft.Content.Deterministic
import Fusecraft.Namespace.Views

namespace Fusecraft

/-!
# Reads through the FUSE adapter

The adapter clamps a request to the bytes of the file, charges the engine for
those, and lets the content fill a buffer of that length.  A client learns the
length of a file from the namespace and reads it piece by piece.  The three
agree because they are built from one configuration.
-/

/-- A read as the kernel asks for it. -/
structure ReadRequest where
  ino : UInt64
  offset : UInt64
  size : UInt32
  deriving DecidableEq, Repr

/-- The filesystem: the engine and the two models it serves. -/
structure FaultFs (F : Type) where
  engine : SimEngine F
  ns : FlatObjectNamespace
  content : DeterministicContent

namespace FaultFs

/-- The filesystem that is mounted for a configuration. -/
def mounted {F : Type} [F64 F] (config : Config F) (uid gid ctime : Nat) : FaultFs F where
  engine := .new config
  ns := .new config.files uid gid ctime
  content := { seed := config.seed, fileLen := config.files.fileSizeBytes }

section Handler

variable (content : DeterministicContent) (request : ReadRequest)

/-- The number of requested bytes that the file has, for a 64-bit `usize`. -/
def readable : Nat :=
  let fileLen := content.lengthOf request.ino
  if fileLen ≤ request.offset then 0
  else min (fileLen - request.offset).toNat request.size.toNat

/-- What the engine is told of a read: the readable length is charged, and the
requested one is kept for the routing by size. -/
def readContext : OpContext :=
  (OpContext.data .read request.ino request.offset (readable content request)).withRequestedLen
    request.size.toNat

/-- The closure of a read. -/
def readBody : Except FsError (List UInt8) :=
  if readable content request = 0 then .ok []
  else
    .ok (content.readAt request.ino request.offset
      (List.replicate (readable content request) 0))

/-- What the kernel is told: the data, or the errno of an error. -/
def readReply : Except FsError (List UInt8) -> Except Int (List UInt8)
  | .ok data => .ok data
  | .error err => .error err.asErrno

/-- The bytes that a request covers. -/
def covered : List UInt8 :=
  content.slice request.ino request.offset.toNat
    (min (request.offset.toNat + request.size.toNat) content.fileLen.toNat)

end Handler

variable {content : DeterministicContent} {request : ReadRequest}

theorem length_covered (content : DeterministicContent) (request : ReadRequest) :
    (covered content request).length = readable content request := by
  unfold covered readable DeterministicContent.lengthOf
  rw [DeterministicContent.length_slice]
  by_cases past : content.fileLen ≤ request.offset
  · have past' : content.fileLen.toNat ≤ request.offset.toNat := UInt64.le_iff_toNat_le.mp past
    rw [if_pos past]
    omega
  · have inside := UInt64.le_of_lt (UInt64.not_le.mp past)
    rw [if_neg past, UInt64.toNat_sub_of_le _ _ inside]
    omega

/-- Nothing is covered just if nothing is asked for or the offset is at or
past the end. -/
theorem covered_eq_nil_iff (content : DeterministicContent) (request : ReadRequest) :
    covered content request = [] ↔ request.size = 0 ∨ content.fileLen ≤ request.offset := by
  rw [← List.length_eq_zero_iff, covered, DeterministicContent.length_slice,
    UInt64.le_iff_toNat_le, ← UInt32.toNat_inj]
  change _ ↔ request.size.toNat = 0 ∨ _
  omega

/-- The closure yields exactly the covered bytes. -/
theorem readBody_eq (content : DeterministicContent) (request : ReadRequest) :
    readBody content request = .ok (covered content request) := by
  have length := length_covered content request
  unfold readBody
  by_cases nothing : readable content request = 0
  · rw [if_pos nothing, List.eq_nil_of_length_eq_zero (length.trans nothing)]
  · rw [if_neg nothing, DeterministicContent.readAt_eq_slice, List.length_replicate, ← length]
    unfold covered at length nothing ⊢
    rw [DeterministicContent.length_slice]
    congr 2
    rw [DeterministicContent.length_slice] at length
    omega

/-! ## Replies of a running filesystem -/

section Replies

variable {F : Type} [F64 F]

/-- A call of a workload is the read of a request. -/
def IsRead {Call : Type} (content : DeterministicContent) (request : ReadRequest)
    (load : Workload Call (List UInt8)) (call : Call) : Prop :=
  load.ctx call = readContext content request ∧ load.body call = readBody content request

/-- A reply that some run of the engine, among any other calls, gives to a
read. -/
def Replies (fs : FaultFs F) (lib : SamplerLib F) (request : ReadRequest)
    (reply : Except Int (List UInt8)) : Prop :=
  exists (Call : Type) (_ : Fintype Call) (_ : DecidableEq Call)
    (load : Workload Call (List UInt8)) (created : Nat) (state : EngineState F Call (List UInt8))
    (call : Call) (seq : UInt64) (served : Option Served) (result : Except FsError (List UInt8)),
    (fs.engine.system lib load created).Reachable state ∧ IsRead fs.content request load call ∧
    state.progress call = .returned seq served result ∧ reply = readReply result

/-- The engine answers a read with an errno or with the covered bytes. -/
theorem Replies.error_or_covered {fs : FaultFs F} {lib : SamplerLib F}
    {reply : Except Int (List UInt8)} (replies : fs.Replies lib request reply) :
    (exists errno, reply = .error errno) ∨ reply = .ok (covered fs.content request) := by
  rcases replies with
    ⟨Call, _, _, load, created, state, call, seq, served, result, reached, read, returned, rfl⟩
  have answers := (EngineState.truthful_of_reachable reached).answers call served result
    (by rw [returned]; rfl)
  cases served with
  | none =>
      rcases answers with ⟨errno, rfl⟩
      exact Or.inl ⟨errno, rfl⟩
  | some served =>
      have answers : result = SimEngine.reply served (load.body call) := answers
      rw [read.2, readBody_eq] at answers
      cases fault : served.fault with
      | none =>
          rw [SimEngine.reply, fault] at answers
          exact Or.inr (congrArg readReply answers)
      | some errno =>
          rw [SimEngine.reply, fault] at answers
          exact Or.inl ⟨errno, congrArg readReply answers⟩

/-- The event of a read carries the charged length. -/
theorem event_len {engine : SimEngine F} {lib : SamplerLib F} {Call : Type} [Fintype Call]
    [DecidableEq Call] {load : Workload Call (List UInt8)} {created : Nat}
    {state : EngineState F Call (List UInt8)}
    (reached : (engine.system lib load created).Reachable state) {call : Call}
    (read : IsRead content request load call) {event : Event}
    (logged : (call, event) ∈ state.events) :
    event.len = (covered content request).length := by
  rcases (EngineState.logged_of_reachable reached).of_mem logged with
    ⟨seq, served, result, -, describes⟩
  rw [describes.2.2.2.2.1, read.1, length_covered]
  rfl

/-- A call that meets no fault, no limit on bandwidth and no other call returns
what its closure yields. -/
theorem exists_returned (engine : SimEngine F) (lib : SamplerLib F)
    (load : Workload Unit (List UInt8))
    (positive : 0 < (engine.resources (load.ctx ()).op).limiter.cap)
    (unlimited : (engine.choice (load.ctx ())).bandwidth = none)
    (unfaulted : (engine.choice (load.ctx ())).faults = []) :
    exists (state : EngineState F Unit (List UInt8)) (served : Served),
      (engine.system lib load 0).Reachable state ∧ served.fault = none ∧
      state.progress () = .returned 0 (some served) (load.body ()) := by
  have start : (engine.system lib load 0).Reachable (engine.initial 0) := .init
  rcases SimEngine.exists_drawing engine lib 0 (EngineState.slotted_of_reachable start)
    (show ((engine.initial 0 : EngineState F Unit (List UInt8)).progress () = .idle) from rfl)
    positive 0 with ⟨drawn, draws, progress, -, -⟩
  have second := start.extend _ (fun _ _ _ => trivial) draws
  have sampled : drawn.progress () =
      .sampled 0 0 (engine.draw lib (load.ctx ()) 0 0) := by
    rw [progress]
    exact Function.update_self ..
  rcases SimEngine.exists_sleep_unlimited lib sampled unlimited 0 with ⟨asleep, sleeps, sleeping, -⟩
  have sleeps : (engine.system lib load 0).step drawn (.reserve () 0) = some asleep := sleeps
  have third := second.step trivial sleeps
  rcases SimEngine.exists_finishing third (by rw [sleeping]; exact Function.update_self ..) 0 0 with
    ⟨notifies, finish, finishes, ended, -⟩
  have last := third.extend _ (fun _ _ _ => trivial) finishes
  have quiet : (engine.draw lib (load.ctx ()) 0 0).fault = none := by
    change sampleFault lib _ _ = none
    rw [unfaulted]
    rfl
  have returned : finish.progress () = .returned 0 (some (engine.draw lib (load.ctx ()) 0 0))
      (SimEngine.reply (engine.draw lib (load.ctx ()) 0 0) (load.body ())) := by
    rw [ended]
    exact Function.update_self ..
  rw [SimEngine.reply, quiet] at returned
  exact ⟨finish, engine.draw lib (load.ctx ()) 0 0, last, quiet, returned⟩

/-- A read that meets no fault, no limit on bandwidth and no other call is
answered with the covered bytes. -/
theorem replies_covered (fs : FaultFs F) (lib : SamplerLib F) (request : ReadRequest)
    (positive : 0 < (fs.engine.resources .read).limiter.cap)
    (unlimited : (fs.engine.choice (readContext fs.content request)).bandwidth = none)
    (unfaulted : (fs.engine.choice (readContext fs.content request)).faults = []) :
    fs.Replies lib request (.ok (covered fs.content request)) := by
  let load : Workload Unit (List UInt8) :=
    { ctx := fun _ => readContext fs.content request
      body := fun _ => readBody fs.content request }
  rcases exists_returned fs.engine lib load positive unlimited unfaulted with
    ⟨state, served, reached, -, returned⟩
  refine ⟨Unit, _, _, load, 0, state, (), 0, some served, _, reached, ⟨rfl, rfl⟩, returned, ?_⟩
  change _ = readReply (readBody fs.content request)
  rw [readBody_eq]
  rfl

end Replies

/-! ## A client that reads a file to its end -/

/-- The client: where it reads next, what it has, and whether it is done. -/
structure Client where
  position : UInt64
  received : List UInt8
  finished : Bool
  deriving DecidableEq, Repr

namespace Client

def initial : Client where
  position := 0
  received := []
  finished := false

/-- Advance by the data of a reply; an empty one ends the file. -/
def receive (client : Client) (data : List UInt8) : Client :=
  if data.isEmpty then { client with finished := true }
  else
    { position := client.position + UInt64.ofNat data.length
      received := client.received ++ data
      finished := false }

/-- The states of a client after a number of replies with data.  Every request
asks for at least one byte at the client's position, and a failed one is
repeated. -/
inductive Ran (replies : ReadRequest -> Except Int (List UInt8) -> Prop) (ino : UInt64) :
    Client -> Nat -> Prop
  | starts : Ran replies ino .initial 0
  | retries {client : Client} {count : Nat} (size : UInt32) (errno : Int)
      (before : Ran replies ino client count) (reading : client.finished = false)
      (positive : 0 < size)
      (replied : replies { ino := ino, offset := client.position, size := size } (.error errno)) :
      Ran replies ino client count
  | receives {client : Client} {count : Nat} (size : UInt32) (data : List UInt8)
      (before : Ran replies ino client count) (reading : client.finished = false)
      (positive : 0 < size)
      (replied : replies { ino := ino, offset := client.position, size := size } (.ok data)) :
      Ran replies ino (client.receive data) (count + 1)

/-- A client has the file up to its position, has come one byte further with
each reply, and is done only at the end. -/
structure Reading (content : DeterministicContent) (ino : UInt64) (client : Client) (count : Nat) :
    Prop where
  position : client.position.toNat = client.received.length
  inside : client.received.length ≤ content.fileLen.toNat
  received : client.received = content.slice ino 0 client.received.length
  complete : client.finished = true -> client.received.length = content.fileLen.toNat
  count : count ≤ client.received.length + client.finished.toNat

variable {content : DeterministicContent} {ino : UInt64} {client : Client} {count : Nat}

/-- The next slice of a file takes a client that has the file so far to the end
of the slice; an empty one ends the reading. -/
theorem receive_slice (position : client.position.toNat = client.received.length)
    (received : client.received = content.slice ino 0 client.received.length) {last : Nat}
    (further : client.received.length ≤ last) (small : last < 2 ^ 64) :
    let next := client.receive (content.slice ino client.received.length last)
    next.position.toNat = next.received.length ∧ next.received.length = last ∧
      next.received = content.slice ino 0 next.received.length ∧
      (next.finished = true ↔ client.received.length = last) := by
  have length := content.length_slice ino client.received.length last
  rw [Client.receive]
  by_cases empty : (content.slice ino client.received.length last).isEmpty = true
  · rw [if_pos empty]
    rw [List.isEmpty_iff_length_eq_zero.mp empty] at length
    have same : client.received.length = last := by omega
    exact ⟨position, same, received, iff_of_true rfl same⟩
  · rw [if_neg empty]
    have some : (content.slice ino client.received.length last).length ≠ 0 :=
      fun none => empty (List.isEmpty_iff_length_eq_zero.mpr none)
    rw [length] at some
    have grown :
        (client.received ++ content.slice ino client.received.length last).length = last := by
      rw [List.length_append, length]
      omega
    refine ⟨?_, grown, ?_, iff_of_false Bool.false_ne_true (by omega)⟩
    · change (client.position + UInt64.ofNat _).toNat = List.length (_ ++ _)
      rw [UInt64.toNat_add, UInt64.toNat_ofNat', position, length, grown]
      omega
    · change _ ++ _ = content.slice ino 0 (List.length (_ ++ _))
      rw [grown]
      calc
        client.received ++ content.slice ino client.received.length last =
            content.slice ino 0 client.received.length ++
              content.slice ino client.received.length last := by rw [← received]
        _ = content.slice ino 0 last :=
          DeterministicContent.slice_append (Nat.zero_le _) further

/-- A reply with the covered bytes keeps a client in order. -/
theorem Reading.receive (reading : client.Reading content ino count) {size : UInt32}
    (positive : 0 < size) (open_ : client.finished = false) :
    (client.receive
      (covered content { ino := ino, offset := client.position, size := size })).Reading
        content ino (count + 1) := by
  rcases reading with ⟨position, inside, received, -, counted⟩
  have positive : 0 < size.toNat := UInt32.lt_iff_toNat_lt.mp positive
  have bound := content.fileLen.toNat_lt
  generalize taken : min (client.position.toNat + size.toNat) content.fileLen.toNat = last
  have data : covered content { ino := ino, offset := client.position, size := size } =
      content.slice ino client.received.length last := by
    rw [← taken, ← position]
    rfl
  rw [open_, Bool.toNat_false] at counted
  rw [data]
  have further : client.received.length ≤ last := by omega
  rcases receive_slice position received further (by omega) with
    ⟨nextPosition, length, nextReceived, finished⟩
  generalize client.receive _ = next at nextPosition length nextReceived finished ⊢
  refine ⟨nextPosition, by omega, nextReceived, fun done => ?_, ?_⟩
  · have same := finished.mp done
    omega
  · cases done : next.finished with
    | true =>
        rw [Bool.toNat_true]
        omega
    | false =>
        have different : client.received.length ≠ last := by
          intro same
          rw [finished.mpr same] at done
          cases done
        rw [Bool.toNat_false]
        omega

/-- Every run of a client keeps it in order, whatever sizes it asks for. -/
theorem reading_of_ran {replies : ReadRequest -> Except Int (List UInt8) -> Prop}
    (answers : forall request data, request.ino = ino -> replies request (.ok data) ->
      data = covered content request)
    (ran : Ran replies ino client count) : client.Reading content ino count := by
  induction ran with
  | starts => exact ⟨rfl, Nat.zero_le _, rfl, (fun done => nomatch done), Nat.zero_le _⟩
  | retries size errno before reading positive replied ih => exact ih
  | receives size data before reading positive replied ih =>
      rw [answers _ data rfl replied]
      exact ih.receive positive reading

end Client

namespace Client

variable {F : Type} [F64 F] {fs : FaultFs F} {lib : SamplerLib F} {ino : UInt64}

/-- A client of a running filesystem is in order. -/
theorem reading_of_replies {client : Client} {count : Nat}
    (ran : Ran (fs.Replies lib) ino client count) : client.Reading fs.content ino count := by
  apply reading_of_ran _ ran
  intro request data _ replied
  rcases replied.error_or_covered with ⟨errno, impossible⟩ | answered
  · cases impossible
  · exact Except.ok.inj answered

/-- Where every read is let through, a client finishes, whatever size it asks
for each time. -/
theorem exists_finished (sizes : Nat -> UInt32) (positive : forall count, 0 < sizes count)
    (through : forall request, fs.Replies lib request (.ok (covered fs.content request))) :
    exists client count, Ran (fs.Replies lib) ino client count ∧ client.finished = true := by
  have advances : forall limit, exists client count, Ran (fs.Replies lib) ino client count ∧
      (client.finished = true ∨ count = limit) := by
    intro limit
    induction limit with
    | zero => exact ⟨.initial, 0, .starts, Or.inr rfl⟩
    | succ limit ih =>
        rcases ih with ⟨client, count, ran, done | rfl⟩
        · exact ⟨client, count, ran, Or.inl done⟩
        · cases finished : client.finished with
          | true => exact ⟨client, count, ran, Or.inl finished⟩
          | false =>
              exact ⟨_, count + 1, .receives (sizes count) _ ran finished (positive count)
                (through _), Or.inr rfl⟩
  rcases advances (fs.content.fileLen.toNat + 1) with ⟨client, count, ran, done | full⟩
  · exact ⟨client, count, ran, done⟩
  · refine ⟨client, count, ran, ?_⟩
    have reading := reading_of_replies ran
    cases finished : client.finished with
    | true => rfl
    | false =>
        have counted := reading.count
        have inside := reading.inside
        rw [finished, Bool.toNat_false] at counted
        omega

end Client

/-- The namespace reports one size for all its files. -/
theorem size_of_file {ns : FlatObjectNamespace} {ino : Nat} {spec : FileAttrSpec}
    (found : ns.attr ino = some spec) (file : spec.kind = .file) :
    spec.size = ns.fileSizeBytes := by
  rcases (ns.attr_isSome ino).mp (by rw [found]; rfl) with directory | ⟨n, inRange, rfl⟩
  · rw [ns.attr_dir directory, Option.some_inj] at found
    subst found
    cases file
  · rw [ns.attr_file inRange, Option.some_inj] at found
    exact found ▸ rfl

/-- Reads are slices of one fixed file.  For every content, the length that a
read charges is the number of bytes from its offset up to the sum of offset and
size or the end of the file; the closure yields the bytes of these positions,
and every run of the engine answers with them or with an errno.  So a client
that reads a file of a mounted filesystem from the start, in any pieces and
past any errors, has come one byte further with every reply, and once it is
done it has the whole file, of the length that the attributes report. -/
theorem reads_reassemble {F : Type} [F64 F] (lib : SamplerLib F) :
    (forall (content : DeterministicContent) (request : ReadRequest),
      (readContext content request).len = (covered content request).length ∧
      (readContext content request).requestedLen = request.size.toNat ∧
      (covered content request = [] ↔
        request.size = 0 ∨ content.fileLen ≤ request.offset) ∧
      (forall index, index < (covered content request).length ->
        request.offset.toNat + index < content.fileLen.toNat ∧
        (covered content request)[index]? = some (synthByte request.ino
          (UInt64.ofNat (request.offset.toNat + index)) content.seed))) ∧
    (forall (fs : FaultFs F) (request : ReadRequest) (reply : Except Int (List UInt8)),
      fs.Replies lib request reply ->
      (exists errno, reply = .error errno) ∨ reply = .ok (covered fs.content request)) ∧
    (forall (config : Config F) (uid gid ctime : Nat) (ino : UInt64) (spec : FileAttrSpec),
      (mounted config uid gid ctime).ns.attr ino.toNat = some spec -> spec.kind = .file ->
      forall (client : Client) (count : Nat),
        Client.Ran ((mounted config uid gid ctime).Replies lib) ino client count ->
        count ≤ spec.size.toNat + 1 ∧
        (count = spec.size.toNat + 1 -> client.finished = true) ∧
        (client.finished = true ->
          client.received =
            (mounted config uid gid ctime).content.slice ino 0 spec.size.toNat ∧
          client.received.length = spec.size.toNat)) := by
  refine ⟨fun content request => ⟨(length_covered content request).symm, rfl,
    covered_eq_nil_iff content request, fun index inside => ?_⟩,
    fun fs request reply replies => replies.error_or_covered, ?_⟩
  · have within := inside
    rw [covered, DeterministicContent.length_slice] at within
    refine ⟨by omega, ?_⟩
    rw [List.getElem?_eq_getElem inside]
    simp only [covered, DeterministicContent.slice, List.getElem_map, List.getElem_range',
      Nat.one_mul]
  · intro config uid gid ctime ino spec found file client count ran
    have size : spec.size = (mounted config uid gid ctime).content.fileLen :=
      size_of_file found file
    have reading := Client.reading_of_replies ran
    have counted := reading.count
    have inside := reading.inside
    have atMostOne := Bool.toNat_le client.finished
    rw [size]
    refine ⟨by omega, fun all => ?_, fun done => ?_⟩
    · cases finished : client.finished with
      | true => rfl
      | false =>
          rw [finished, Bool.toNat_false] at counted
          omega
    · have complete := reading.complete done
      have received := reading.received
      rw [complete] at received
      exact ⟨received, complete⟩

end FaultFs

end Fusecraft
