import Fusecraft.Library.Draining
import Fusecraft.Adapter.Read

namespace Fusecraft

/-!
# Reads on targets with a narrower usize

The read handler casts the number of bytes left to `usize` before it takes the
minimum with the request.  Nothing in the crates fixes the width of `usize`;
it is a parameter here.  At 64 bits the cast loses nothing and the handler is
the one that was modelled before.  At 32 bits a client sees what is left modulo
`2 ^ 32`, and takes the first multiple of it for the end of the file.
-/

namespace FaultFs

section Handler

variable (width : Nat) (content : DeterministicContent) (request : ReadRequest)

/-- `as usize` for a `usize` of the given width. -/
def asUsize (value : Nat) : Nat := value % 2 ^ width

/-- The number of bytes that the handler takes for readable. -/
def readableOn : Nat :=
  let requested := asUsize width request.size.toNat
  let fileLen := content.lengthOf request.ino
  if fileLen ≤ request.offset then 0
  else min (asUsize width (fileLen - request.offset).toNat) requested

/-- What the engine is told of a read. -/
def readContextOn : OpContext :=
  (OpContext.data .read request.ino request.offset
    (readableOn width content request)).withRequestedLen (asUsize width request.size.toNat)

/-- The closure of a read.  A buffer of more than `isize::MAX` bytes is beyond
the capacity of a vector, and asking for one panics. -/
def readBodyOn : Option (Except FsError (List UInt8)) :=
  if readableOn width content request = 0 then some (.ok [])
  else if readableOn width content request < 2 ^ (width - 1) then
    some (.ok (content.readAt request.ino request.offset
      (List.replicate (readableOn width content request) 0)))
  else none

/-- What the kernel is told of a read that meets no injected error. -/
def readOn : Option (Except Int (List UInt8)) := (readBodyOn width content request).map readReply

end Handler

variable {width : Nat} {content : DeterministicContent} {request : ReadRequest}

/-! ## The width that was modelled before -/

theorem readableOn_64 (content : DeterministicContent) (request : ReadRequest) :
    readableOn 64 content request = readable content request := by
  have left := (content.lengthOf request.ino - request.offset).toNat_lt
  have size : request.size.toNat < 2 ^ 64 := lt_trans request.size.toNat_lt (by decide)
  simp only [readableOn, readable, asUsize, Nat.mod_eq_of_lt left, Nat.mod_eq_of_lt size]

theorem readContextOn_64 (content : DeterministicContent) (request : ReadRequest) :
    readContextOn 64 content request = readContext content request := by
  have size : request.size.toNat < 2 ^ 64 := lt_trans request.size.toNat_lt (by decide)
  rw [readContextOn, readableOn_64, asUsize, Nat.mod_eq_of_lt size]
  rfl

theorem readBodyOn_64 (content : DeterministicContent) (request : ReadRequest) :
    readBodyOn 64 content request = some (readBody content request) := by
  have small : readable content request < 2 ^ (64 - 1) := by
    simp only [readable]
    split
    · decide
    · exact lt_of_le_of_lt (Nat.min_le_right _ _) (lt_trans request.size.toNat_lt (by decide))
  rw [readBodyOn, readableOn_64, readBody, if_pos small]
  split <;> rfl

/-! ## Replies without injected errors -/

/-- A call of a workload is the read of a request, and its closure does not
panic. -/
def IsReadOn {Call : Type} (width : Nat) (content : DeterministicContent) (request : ReadRequest)
    (load : Workload Call (List UInt8)) (call : Call) : Prop :=
  load.ctx call = readContextOn width content request ∧
    readBodyOn width content request = some (load.body call)

theorem isReadOn_64 {Call : Type} (load : Workload Call (List UInt8)) (call : Call) :
    IsReadOn 64 content request load call ↔ IsRead content request load call := by
  rw [IsReadOn, IsRead, readContextOn_64, readBodyOn_64, Option.some_inj]
  exact and_congr_right (fun _ => eq_comm)

/-- In every run of every engine, a read that was admitted and drew no fault is
answered with what its closure yields. -/
theorem readOn_of_returned {F : Type} [F64 F] {engine : SimEngine F} {lib : SamplerLib F}
    {Call : Type} [Fintype Call] [DecidableEq Call] {load : Workload Call (List UInt8)}
    {created : Nat} {state : EngineState F Call (List UInt8)}
    (reached : (engine.system lib load created).Reachable state) {call : Call}
    (read : IsReadOn width content request load call) {seq : UInt64} {served : Served}
    {result : Except FsError (List UInt8)}
    (returned : state.progress call = .returned seq (some served) result)
    (unfaulted : served.fault = none) :
    readOn width content request = some (readReply result) := by
  have answers : result = SimEngine.reply served (load.body call) :=
    (EngineState.truthful_of_reachable reached).answers call (some served) result
      (by rw [returned]; rfl)
  rw [SimEngine.reply, unfaulted] at answers
  rw [readOn, read.2, answers]
  rfl

/-- Where the closure does not panic, some run answers the read: with no fault,
no limit on bandwidth and no other call. -/
theorem exists_readOn {F : Type} [F64 F] (engine : SimEngine F) (lib : SamplerLib F)
    {body : Except FsError (List UInt8)} (yields : readBodyOn width content request = some body)
    (positive : 0 < (engine.resources .read).limiter.cap)
    (unlimited : (engine.choice (readContextOn width content request)).bandwidth = none)
    (unfaulted : (engine.choice (readContextOn width content request)).faults = []) :
    exists (load : Workload Unit (List UInt8)) (state : EngineState F Unit (List UInt8))
      (served : Served), IsReadOn width content request load () ∧
      (engine.system lib load 0).Reachable state ∧ served.fault = none ∧
      state.progress () = .returned 0 (some served) body := by
  let load : Workload Unit (List UInt8) :=
    { ctx := fun _ => readContextOn width content request
      body := fun _ => body }
  rcases exists_returned engine lib load positive unlimited unfaulted with
    ⟨state, served, reached, quiet, returned⟩
  exact ⟨load, state, served, ⟨rfl, yields⟩, reached, quiet, returned⟩

/-! ## What a reply carries -/

/-- A request gets what it would get of a file that is seen modulo the range of
`usize`. -/
theorem readableOn_eq_gets (wide : 32 ≤ width) (content : DeterministicContent)
    (request : ReadRequest) :
    readableOn width content request = Draining.gets content.fileLen.toNat (2 ^ width)
      request.offset.toNat request.size.toNat := by
  have size : request.size.toNat < 2 ^ width :=
    lt_of_lt_of_le request.size.toNat_lt (Nat.pow_le_pow_right (by decide) wide)
  simp only [readableOn, DeterministicContent.lengthOf, asUsize, Nat.mod_eq_of_lt size]
  by_cases past : content.fileLen ≤ request.offset
  · rw [if_pos past, Draining.gets_of_le (UInt64.le_iff_toNat_le.mp past)]
  · have inside := UInt64.le_of_lt (UInt64.not_le.mp past)
    rw [if_neg past, UInt64.toNat_sub_of_le _ _ inside]
    rfl

/-- A reply is a slice of the file, or the buffer does not fit. -/
theorem readOn_eq (width : Nat) (content : DeterministicContent) (request : ReadRequest) :
    readOn width content request =
      if readableOn width content request < 2 ^ (width - 1) then
        some (.ok (content.slice request.ino request.offset.toNat
          (request.offset.toNat + readableOn width content request)))
      else none := by
  unfold readOn readBodyOn
  by_cases nothing : readableOn width content request = 0
  · rw [if_pos nothing, if_pos (nothing ▸ Nat.two_pow_pos _), nothing]
    simp [readReply, DeterministicContent.slice]
  · rw [if_neg nothing, DeterministicContent.readAt_eq_slice, List.length_replicate]
    split <;> rfl

/-! ## A client that reads to the first empty reply -/

namespace Client

/-- What a client makes of a reply; it repeats a request that failed. -/
def take (client : Client) : Except Int (List UInt8) -> Client
  | .ok data => client.receive data
  | .error _ => client

/-- The client after a number of requests of given sizes.  It starts at offset
zero and sends nothing more after an empty reply; where the handler panics, it
gets no further. -/
def fetch (width : Nat) (content : DeterministicContent) (ino : UInt64) (sizes : Nat -> UInt32) :
    Nat -> Option Client
  | 0 => some .initial
  | count + 1 => do
      let client <- fetch width content ino sizes count
      if client.finished then some client
      else
        let reply <- readOn width content
          { ino := ino, offset := client.position, size := sizes count }
        some (client.take reply)

/-- The client comes to an empty reply and has as many bytes as the file. -/
def FetchesAll (width : Nat) (content : DeterministicContent) (ino : UInt64)
    (sizes : Nat -> UInt32) : Prop :=
  exists count client, fetch width content ino sizes count = some client ∧
    client.finished = true ∧ client.received.length = content.fileLen.toNat

/-- What a client has after a number of requests: as many bytes as it would have
of a file seen modulo the range of `usize`, and all of these once it has come
to an empty reply. -/
structure Fetched (width : Nat) (content : DeterministicContent) (ino : UInt64)
    (sizes : Nat -> UInt32) (count : Nat) (client : Client) : Prop where
  position : client.position.toNat = client.received.length
  length : client.received.length = Draining.reached content.fileLen.toNat (2 ^ width)
    (fun index => (sizes index).toNat) count
  received : client.received = content.slice ino 0 client.received.length
  ended : client.finished = true -> client.received.length = content.fileLen.toNat % 2 ^ width

variable {ino : UInt64} {sizes : Nat -> UInt32} {count : Nat} {client : Client}

/-- A client never has more than the residue of the length. -/
theorem Fetched.inside (fetched : Fetched width content ino sizes count client) :
    client.received.length ≤ content.fileLen.toNat % 2 ^ width :=
  fetched.length ▸ Draining.reached_le _ _ _ _

/-- What the handler takes for readable in the next request. -/
theorem Fetched.readable (wide : 32 ≤ width)
    (fetched : Fetched width content ino sizes count client) :
    readableOn width content { ino := ino, offset := client.position, size := sizes count } =
      min (content.fileLen.toNat % 2 ^ width - client.received.length) (sizes count).toNat := by
  rw [readableOn_eq_gets wide]
  change Draining.gets _ _ client.position.toNat _ = _
  rw [fetched.position, Draining.gets_eq fetched.inside]

/-- A client that has come to an empty reply stays as it is. -/
theorem Fetched.stays (fetched : Fetched width content ino sizes count client)
    (finished : client.finished = true) : Fetched width content ino sizes (count + 1) client := by
  have whole := fetched.ended finished
  refine ⟨fetched.position, ?_, fetched.received, fetched.ended⟩
  change _ = Draining.reached _ _ _ count + Draining.gets _ _ _ _
  rw [← fetched.length, Draining.gets_eq fetched.inside, whole, Nat.sub_self, Nat.zero_min,
    Nat.add_zero]

/-- A client with a reply has got what it could get; the reply is empty just if
the client had the residue already. -/
theorem Fetched.receives (wide : 32 ≤ width)
    (fetched : Fetched width content ino sizes count client) (positive : 0 < sizes count)
    {reply : Except Int (List UInt8)} (replied : readOn width content
      { ino := ino, offset := client.position, size := sizes count } = some reply) :
    Fetched width content ino sizes (count + 1) (client.take reply) ∧
      ((client.take reply).finished = true ↔
        client.received.length = content.fileLen.toNat % 2 ^ width) := by
  have positive : 0 < (sizes count).toNat := UInt32.lt_iff_toNat_lt.mp positive
  have inside := fetched.inside
  have residue := Nat.mod_le content.fileLen.toNat (2 ^ width)
  have bound := content.fileLen.toNat_lt
  rw [readOn_eq, fetched.readable wide] at replied
  generalize taken : min (content.fileLen.toNat % 2 ^ width - client.received.length)
    (sizes count).toNat = readable at replied
  rw [Option.ite_none_right_eq_some, Option.some_inj] at replied
  rcases replied with ⟨-, rfl⟩
  change Fetched width content ino sizes (count + 1) (client.receive
    (content.slice ino client.position.toNat (client.position.toNat + readable))) ∧
      ((client.receive _).finished = true ↔ _)
  rw [fetched.position]
  rcases receive_slice fetched.position fetched.received (Nat.le_add_right _ readable) (by omega)
    with ⟨position, length, received, finished⟩
  refine ⟨⟨position, ?_, received, fun done => ?_⟩, finished.trans (by omega)⟩
  · change _ = Draining.reached _ _ _ count + Draining.gets _ _ _ _
    rw [length, ← fetched.length, Draining.gets_eq inside, taken]
  · have same := finished.mp done
    omega

theorem fetch_succ (width : Nat) (content : DeterministicContent) (ino : UInt64)
    (sizes : Nat -> UInt32) (count : Nat) :
    fetch width content ino sizes (count + 1) =
      (fetch width content ino sizes count).bind (fun client =>
        if client.finished then some client
        else (readOn width content
          { ino := ino, offset := client.position, size := sizes count }).map client.take) := by
  rw [fetch]
  congr 1
  funext client
  split
  · rfl
  · cases readOn width content
        { ino := ino, offset := client.position, size := sizes count } with
    | none => rfl
    | some reply => rfl

/-- What one more request can do: a client that is done stays as it is, and any
other one takes the reply to a request at its position. -/
theorem fetch_cases (runs : fetch width content ino sizes (count + 1) = some client) :
    exists before, fetch width content ino sizes count = some before ∧
      (before.finished = true ∧ client = before ∨
        before.finished = false ∧ exists reply, readOn width content
          { ino := ino, offset := before.position, size := sizes count } = some reply ∧
          client = before.take reply) := by
  rw [fetch_succ, Option.bind_eq_some_iff] at runs
  rcases runs with ⟨before, ran, moves⟩
  refine ⟨before, ran, ?_⟩
  cases finished : before.finished with
  | true =>
      rw [if_pos finished, Option.some_inj] at moves
      exact Or.inl ⟨rfl, moves.symm⟩
  | false =>
      rw [if_neg (by rw [finished]; exact Bool.false_ne_true)] at moves
      rcases Option.map_eq_some_iff.mp moves with ⟨reply, replied, taken⟩
      exact Or.inr ⟨rfl, reply, replied, taken.symm⟩

/-- Every run of the client, whatever it asks for. -/
theorem fetched_of_fetch (wide : 32 ≤ width) (positive : forall index, 0 < sizes index)
    (runs : fetch width content ino sizes count = some client) :
    Fetched width content ino sizes count client := by
  induction count generalizing client with
  | zero =>
      cases runs
      exact ⟨rfl, rfl, rfl, (fun done => nomatch done)⟩
  | succ count ih =>
      rcases fetch_cases runs with ⟨before, ran, ⟨finished, rfl⟩ | ⟨-, reply, replied, rfl⟩⟩
      · exact (ih ran).stays finished
      · exact ((ih ran).receives wide (positive count) replied).1

/-- A client that got somewhere had been at every point before. -/
theorem exists_fetch_of_le {earlier : Nat} (before : earlier ≤ count)
    (runs : fetch width content ino sizes count = some client) :
    exists former, fetch width content ino sizes earlier = some former := by
  induction before generalizing client with
  | refl => exact ⟨client, runs⟩
  | step before ih =>
      rcases fetch_cases runs with ⟨former, ran, -⟩
      exact ih ran

/-- The handler replies just if the buffer fits. -/
theorem Fetched.replies_iff (wide : 32 ≤ width)
    (fetched : Fetched width content ino sizes count client) :
    (readOn width content
        { ino := ino, offset := client.position, size := sizes count }).isSome = true ↔
      min (content.fileLen.toNat % 2 ^ width - client.received.length) (sizes count).toNat <
        2 ^ (width - 1) := by
  rw [readOn_eq, fetched.readable wide]
  split
  · next fits => exact iff_of_true rfl fits
  · next overflows => exact iff_of_false Bool.false_ne_true overflows

/-- The number of bytes asked for in the first requests. -/
def asked (sizes : Nat -> UInt32) (count : Nat) : Nat :=
  ∑ index ∈ Finset.range count, (sizes index).toNat

/-- What a client has got is what it has asked for, up to the residue. -/
theorem Fetched.length_eq (fetched : Fetched width content ino sizes count client) :
    client.received.length = min (content.fileLen.toNat % 2 ^ width) (asked sizes count) :=
  fetched.length.trans (Draining.reached_eq _ _ _ _)

theorem asked_mono (sizes : Nat -> UInt32) {earlier later : Nat} (before : earlier ≤ later) :
    asked sizes earlier ≤ asked sizes later :=
  Finset.sum_le_sum_of_subset (Finset.range_mono before)

/-- Every buffer fits: no request asks for more than `isize::MAX` bytes where
the file has as many left. -/
def BuffersFit (width : Nat) (content : DeterministicContent) (sizes : Nat -> UInt32) : Prop :=
  forall index, asked sizes index + 2 ^ (width - 1) ≤ content.fileLen.toNat ->
    (sizes index).toNat < 2 ^ (width - 1)

/-- Where every buffer fits and the length is in range, the client gets on for
ever. -/
theorem exists_fetch (wide : 32 ≤ width) (positive : forall index, 0 < sizes index)
    (small : content.fileLen.toNat < 2 ^ width) (fit : BuffersFit width content sizes)
    (count : Nat) : exists client, fetch width content ino sizes count = some client := by
  induction count with
  | zero => exact ⟨.initial, rfl⟩
  | succ count ih =>
      rcases ih with ⟨before, runs⟩
      have fetched := fetched_of_fetch wide positive runs
      have range := Nat.two_pow_pos (width - 1)
      rw [fetch_succ, runs, Option.bind_some]
      cases finished : before.finished with
      | true => exact ⟨before, rfl⟩
      | false =>
          have length := fetched.length_eq
          rw [Nat.mod_eq_of_lt small] at length
          have fits : min (content.fileLen.toNat % 2 ^ width - before.received.length)
              (sizes count).toNat < 2 ^ (width - 1) := by
            rw [Nat.mod_eq_of_lt small]
            by_cases room : asked sizes count + 2 ^ (width - 1) ≤ content.fileLen.toNat
            · exact lt_of_le_of_lt (Nat.min_le_right _ _) (fit count room)
            · apply lt_of_le_of_lt (Nat.min_le_left _ _)
              omega
          have replies := (fetched.replies_iff wide).mpr fits
          rcases Option.isSome_iff_exists.mp replies with ⟨reply, replied⟩
          exact ⟨before.take reply, by rw [replied]; rfl⟩

/-- After as many requests as the residue has bytes, the next reply is empty. -/
theorem finished_of_residue (wide : 32 ≤ width) (positive : forall index, 0 < sizes index)
    (runs : fetch width content ino sizes (content.fileLen.toNat % 2 ^ width + 1) = some client) :
    client.finished = true := by
  rcases fetch_cases runs with ⟨before, ran, ⟨finished, rfl⟩ | ⟨-, reply, replied, rfl⟩⟩
  · exact finished
  · have fetched := fetched_of_fetch wide positive ran
    have nonzero : forall index, 0 < (sizes index).toNat :=
      fun index => UInt32.lt_iff_toNat_lt.mp (positive index)
    apply (fetched.receives wide (positive _) replied).2.mpr
    exact fetched.length.trans (Draining.reached_residue nonzero (Nat.le_refl _))

/-- A client that has the whole file had a buffer for each request on its way. -/
theorem buffersFit_of_fetch (wide : 32 ≤ width) (positive : forall index, 0 < sizes index)
    (runs : fetch width content ino sizes count = some client)
    (small : content.fileLen.toNat < 2 ^ width)
    (whole : client.received.length = content.fileLen.toNat) :
    BuffersFit width content sizes := by
  intro index room
  have range := Nat.two_pow_pos (width - 1)
  have residue := Nat.mod_eq_of_lt small
  have length := (fetched_of_fetch wide positive runs).length_eq
  rw [residue] at length
  have later : index < count := by
    by_contra past
    have few := asked_mono sizes (Nat.le_of_not_lt past)
    omega
  rcases exists_fetch_of_le later runs with ⟨next, step⟩
  rcases fetch_cases step with ⟨before, ran, moves⟩
  have fetched := fetched_of_fetch wide positive ran
  have partway := fetched.length_eq
  rw [residue] at partway
  rcases moves with ⟨finished, -⟩ | ⟨-, reply, replied, -⟩
  · have all := fetched.ended finished
    omega
  · have fits := (fetched.replies_iff wide).mp (by rw [replied]; rfl)
    rw [residue] at fits
    omega

/-- For any width, a client gets the whole file if and only if its length is in
the range of `usize` and all buffers fit. -/
theorem fetchesAll_iff (wide : 32 ≤ width) (positive : forall index, 0 < sizes index) :
    FetchesAll width content ino sizes ↔
      content.fileLen.toNat < 2 ^ width ∧ BuffersFit width content sizes := by
  constructor
  · rintro ⟨count, client, runs, finished, whole⟩
    have small : content.fileLen.toNat < 2 ^ width := by
      have all := (fetched_of_fetch wide positive runs).ended finished
      rw [← whole, all]
      exact Nat.mod_lt _ (Nat.two_pow_pos width)
    exact ⟨small, buffersFit_of_fetch wide positive runs small whole⟩
  · rintro ⟨small, fit⟩
    have goes : exists client,
        fetch width content ino sizes (content.fileLen.toNat % 2 ^ width + 1) = some client :=
      exists_fetch wide positive small fit _
    rcases goes with ⟨client, runs⟩
    have finished := finished_of_residue wide positive runs
    have all := (fetched_of_fetch wide positive runs).ended finished
    exact ⟨_, client, runs, finished, all.trans (Nat.mod_eq_of_lt small)⟩

/-- With 64 bits nothing can go wrong. -/
theorem fetchesAll_64 (content : DeterministicContent) (ino : UInt64)
    (positive : forall index, 0 < sizes index) : FetchesAll 64 content ino sizes := by
  apply (fetchesAll_iff (by decide) positive).mpr
  refine ⟨content.fileLen.toNat_lt, fun index _ => ?_⟩
  exact lt_trans (sizes index).toNat_lt (by decide)

/-- Where reading to the end yields the whole file on 32-bit targets.  For every
length, inode and sequence of request sizes, a client receives exactly as many
bytes as the file has if and only if the length is below `2 ^ 32` and no
request asks for `2 ^ 31` bytes or more while as many are left. -/
theorem whole_file_iff (content : DeterministicContent) (ino : UInt64) (sizes : Nat -> UInt32)
    (positive : forall index, 0 < sizes index) :
    FetchesAll 32 content ino sizes ↔
      content.fileLen.toNat < 2 ^ 32 ∧
        forall index, asked sizes index + 2 ^ 31 ≤ content.fileLen.toNat ->
          (sizes index).toNat < 2 ^ 31 :=
  fetchesAll_iff (by decide) positive

/-- Pages of a file of the default length. -/
theorem whole_file_iff_pages :
    FetchesAll 32 { seed := 42, fileLen := 65536 } 100 (fun _ => 4096) :=
  (whole_file_iff _ 100 (fun _ => 4096) (fun _ => by decide)).mpr
    ⟨by decide, fun _ _ => by decide⟩

/-- The first reply from a file of `2 ^ 32` bytes is empty, and nothing of the
file is received. -/
theorem whole_file_lost :
    readOn 32 { seed := 42, fileLen := 2 ^ 32 } { ino := 100, offset := 0, size := 4096 } =
      some (.ok []) ∧
    ¬ FetchesAll 32 { seed := 42, fileLen := 2 ^ 32 } 100 (fun _ => 4096) := by
  refine ⟨rfl, ?_⟩
  rintro ⟨count, client, runs, finished, whole⟩
  have positive : (0 : UInt32) < 4096 := by decide
  have residue := (fetched_of_fetch (Nat.le_refl 32) (fun _ => positive) runs).ended finished
  rw [whole] at residue
  exact absurd residue (by decide)

end Client

end FaultFs

end Fusecraft
