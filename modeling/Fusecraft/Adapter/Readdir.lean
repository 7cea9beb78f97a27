import Fusecraft.Namespace.Flat

namespace Fusecraft

open FlatObjectNamespace

/-!
# Directory reads through the FUSE adapter

The adapter collects the entries after the requested cookie and then adds
them to the kernel's reply buffer until the buffer says stop.  A client reads
a directory by calling it again and again, each time with the cookie of the
last entry it received.

The reply buffer belongs to the FUSE library.  It has some room, an entry has
some size, and there are two ways to signal that it is full: refuse the entry
on which it stops, as `ReplyDirectory::add` does, or accept that entry and
stop there, as the sinks of the namespace do.
-/

/-- What a buffer does with the entry on which it signals *stop*. -/
inductive StopProtocol where
  | refuses
  | accepts
  deriving DecidableEq, Repr

/-- A reply under construction: the entries taken so far and the room left. -/
structure ReplyDirectory where
  entries : List DirEntry
  room : Nat

namespace ReplyDirectory

variable (protocol : StopProtocol) (size : DirEntry -> Nat)

/-- Add an entry; the answer `true` means stop. -/
def add (reply : ReplyDirectory) (entry : DirEntry) : ReplyDirectory × Bool :=
  match protocol with
  | .refuses =>
      if size entry ≤ reply.room then
        ({ entries := reply.entries ++ [entry], room := reply.room - size entry }, false)
      else (reply, true)
  | .accepts =>
      ({ entries := reply.entries ++ [entry], room := reply.room - size entry },
        decide (reply.room ≤ size entry))

/-- The adapter's loop: `if reply.add(..) { break; }`. -/
def fill : ReplyDirectory -> List DirEntry -> ReplyDirectory
  | reply, [] => reply
  | reply, entry :: rest =>
      match reply.add protocol size entry with
      | (next, true) => next
      | (next, false) => fill next rest

/-- The loop adds a prefix of the entries it is given. -/
theorem fill_page (reply : ReplyDirectory) (entries : List DirEntry) :
    exists page rest, entries = page ++ rest ∧
      (reply.fill protocol size entries).entries = reply.entries ++ page := by
  induction entries generalizing reply with
  | nil => exact ⟨[], [], rfl, (List.append_nil _).symm⟩
  | cons entry rest ih =>
      have taken : forall next : ReplyDirectory, next.entries = reply.entries ++ [entry] ->
          exists page left, entry :: rest = page ++ left ∧
            (next.fill protocol size rest).entries = reply.entries ++ page := by
        intro next grown
        rcases ih next with ⟨page, left, split, filled⟩
        refine ⟨entry :: page, left, by rw [split, List.cons_append], ?_⟩
        rw [filled, grown, List.append_assoc, List.singleton_append]
      cases protocol with
      | refuses =>
          by_cases fits : size entry ≤ reply.room
          · simp only [fill, add, if_pos fits]
            exact taken _ rfl
          · simp only [fill, add, if_neg fits]
            exact ⟨[], entry :: rest, rfl, (List.append_nil _).symm⟩
      | accepts =>
          by_cases full : reply.room ≤ size entry
          · simp only [fill, add, decide_eq_true full]
            exact ⟨[entry], rest, rfl, rfl⟩
          · simp only [fill, add, decide_eq_false full]
            exact taken _ rfl

/-- A buffer with room for the first entry takes it. -/
theorem fill_ne_nil (reply : ReplyDirectory) (entry : DirEntry) (rest : List DirEntry)
    (fits : size entry ≤ reply.room) :
    (reply.fill protocol size (entry :: rest)).entries ≠ [] := by
  have grows : forall (next : ReplyDirectory), next.entries = reply.entries ++ [entry] ->
      (next.fill protocol size rest).entries ≠ [] := by
    intro next grown
    rcases next.fill_page protocol size rest with ⟨page, left, -, filled⟩
    rw [filled, grown]
    simp
  cases protocol with
  | refuses =>
      simp only [fill, add, if_pos fits]
      exact grows _ rfl
  | accepts =>
      by_cases full : reply.room ≤ size entry
      · simp only [fill, add, decide_eq_true full]
        simp
      · simp only [fill, add, decide_eq_false full]
        exact grows _ rfl

end ReplyDirectory

namespace FaultFs

variable (protocol : StopProtocol) (size : DirEntry -> Nat) (ns : FlatObjectNamespace)

/-- `FaultFs::readdir` for one request.  The engine's verdict is the error
with which `run_op` refuses or faults the operation, if any; otherwise the
closure runs and its entries are added to a fresh reply of the given room.
An error reply carries an errno. -/
def readdir (verdict : Option FsError) (ino offset room : Nat) : Except Int ReplyDirectory :=
  match verdict with
  | some err => .error err.asErrno
  | none =>
      match ns.readdir collect ino offset [] with
      | .error err => .error err.asErrno
      | .ok entries => .ok (({ entries := [], room := room } : ReplyDirectory).fill protocol size
          entries)

/-- The environment of one request: the engine's verdict and the reply's room. -/
structure Request where
  verdict : Option FsError
  room : Nat

/-- A client that reads a directory to its end.  It resumes from the cookie of
the last entry received, repeats a request that failed, and stops at the first
empty reply.  No result means that the fuel has run out. -/
def readAll (requests : Nat -> Request) (ino : Nat) :
    Nat -> Nat -> Nat -> List DirEntry -> Option (List DirEntry)
  | 0, _, _, _ => none
  | fuel + 1, number, offset, received =>
      match readdir protocol size ns (requests number).verdict ino offset
          (requests number).room with
      | .error _ => readAll requests ino fuel (number + 1) offset received
      | .ok reply =>
          match reply.entries.getLast? with
          | none => some received
          | some last =>
              readAll requests ino fuel (number + 1) last.offset (received ++ reply.entries)

variable {protocol size ns}

/-- A request that the engine lets through yields a page: a prefix of the
entries after the cookie, and not an empty one unless there are none. -/
theorem readdir_page {ino : Nat} (protocol : StopProtocol) (directory : IsDirIno ino)
    (offset room : Nat)
    (fits : forall entry, entry ∈ ns.entries ino -> size entry ≤ room) :
    exists reply rest, readdir protocol size ns none ino offset room = .ok reply ∧
      Paging.after DirEntry.offset (ns.entries ino) offset = reply.entries ++ rest ∧
      (reply.entries = [] -> rest = []) := by
  let entries := Paging.after DirEntry.offset (ns.entries ino) offset
  let reply := ({ entries := [], room := room } : ReplyDirectory).fill protocol size entries
  have listed : ns.readdir collect ino offset [] = .ok entries := ns.listing_of_dir directory offset
  rcases ({ entries := [], room := room } : ReplyDirectory).fill_page protocol size entries with
    ⟨page, rest, split, filled⟩
  have filled : reply.entries = page := filled
  refine ⟨reply, rest, ?_, ?_, ?_⟩
  · rw [readdir, listed]
  · rw [filled]
    exact split
  · intro empty
    cases shape : entries with
    | nil =>
        rw [shape] at split
        exact (List.append_eq_nil_iff.mp split.symm).2
    | cons entry others =>
        have member : entry ∈ entries := by
          rw [shape]
          exact List.mem_cons_self
        have nonempty := ReplyDirectory.fill_ne_nil protocol size { entries := [], room := room }
          entry others (fits entry (List.mem_of_mem_filter member))
        rw [← shape] at nonempty
        exact absurd empty nonempty

/-- Requests that fail leave the client where it is. -/
theorem readAll_failures (requests : Nat -> Request) (ino count fuel number offset : Nat)
    (received : List DirEntry)
    (failing : forall k, k < count -> (requests (number + k)).verdict ≠ none) :
    readAll protocol size ns requests ino (count + fuel) number offset received =
      readAll protocol size ns requests ino fuel (number + count) offset received := by
  induction count generalizing number with
  | zero => rw [Nat.zero_add, Nat.add_zero]
  | succ count ih =>
      rcases Option.ne_none_iff_exists'.mp (failing 0 (Nat.succ_pos count)) with ⟨err, failed⟩
      rw [Nat.add_zero] at failed
      have later := ih (number + 1) (fun k below => by
        have next := failing (k + 1) (by omega)
        rwa [show number + (k + 1) = number + 1 + k by omega] at next)
      rw [show count + 1 + fuel = (count + fuel) + 1 by omega, readAll, failed]
      simp only [readdir]
      rw [later, show number + 1 + count = number + (count + 1) by omega]

/-- From any point of a read, enough fuel completes the listing. -/
theorem readAll_completes {requests : Nat -> Request} {ino : Nat} (directory : IsDirIno ino)
    (fits : forall number entry, entry ∈ ns.entries ino -> size entry ≤ (requests number).room)
    (served : forall number, exists k, (requests (number + k)).verdict = none)
    (left : Nat) :
    forall (number offset : Nat) (received : List DirEntry),
      ns.entries ino = received ++ Paging.after DirEntry.offset (ns.entries ino) offset ->
      (Paging.after DirEntry.offset (ns.entries ino) offset).length = left ->
      exists fuel, readAll protocol size ns requests ino fuel number offset received =
        some (ns.entries ino) := by
  induction left using Nat.strong_induction_on with
  | _ left ih =>
      intro number offset received split remaining
      -- Skip the failing requests before the next one that is served.
      obtain ⟨passes, failing⟩ :=
        And.intro (Nat.find_spec (served number)) (fun k => Nat.find_min (served number) (m := k))
      generalize Nat.find (served number) = count at passes failing
      rcases readdir_page protocol directory offset (requests (number + count)).room
        (fits (number + count)) with ⟨reply, rest, replies, page, complete⟩
      have enough : exists fuel, readAll protocol size ns requests ino fuel (number + count) offset
          received = some (ns.entries ino) := by
        cases last : reply.entries.getLast? with
        | none =>
            have empty : reply.entries = [] := List.getLast?_eq_none_iff.mp last
            refine ⟨1, ?_⟩
            rw [readAll, passes, replies]
            simp only [last]
            rw [split, page, empty, complete empty, List.append_nil, List.append_nil]
        | some entry =>
            rcases List.getLast?_eq_some_iff.mp last with ⟨before, shape⟩
            have whole : ns.entries ino = received ++ (before ++ [entry] ++ rest) := by
              rw [← shape, ← page]
              exact split
            have sorted := ns.entries_sorted ino
            rw [whole] at sorted
            have resumed := Paging.after_page sorted
            rw [← whole] at resumed
            have shorter : rest.length < left := by
              rw [← remaining, page, shape]
              simp only [List.length_append, List.length_cons, List.length_nil]
              omega
            obtain ⟨fuel, finished⟩ := ih rest.length shorter (number + count + 1) entry.offset
              (received ++ reply.entries)
              (by rw [resumed, shape, List.append_assoc]; exact whole)
              (by rw [resumed])
            refine ⟨fuel + 1, ?_⟩
            rw [readAll, passes, replies]
            simp only [last]
            exact finished
      rcases enough with ⟨fuel, finished⟩
      refine ⟨count + fuel, ?_⟩
      rw [readAll_failures requests ino count fuel number offset received failing]
      exact finished

end FaultFs

/-- Paged directory reads lose and repeat nothing.  For both directories:
reading from any cookie lists exactly the entries of the full listing with a
greater cookie, in order, and cookies strictly increase; any sink is pushed a
prefix of them, all of them unless it said stop on the last one pushed; and a
client that resumes from its last cookie until an empty reply finishes with
the full listing, under either stop protocol, whatever the sizes of entries
and reply buffers are, as long as a buffer holds one entry and the engine does
not fail every request from some point on. -/
theorem readdir_pages_complete (ns : FlatObjectNamespace) (ino : Nat)
    (directory : IsDirIno ino) :
    (exists listing, ns.listing ino 0 = .ok listing ∧
      listing.Pairwise (fun first second => first.offset < second.offset) ∧
      (forall offset, ns.listing ino offset =
        .ok (listing.filter (fun entry => offset < entry.offset))) ∧
      (forall (Sink : Type) (push : Sink -> DirEntry -> Sink × Bool) offset sink,
        exists next pushed rest,
          ns.readdir (Paging.traced push) ino offset (sink, []) = .ok (next, pushed) ∧
          ns.readdir push ino offset sink = .ok next ∧
          listing.filter (fun entry => offset < entry.offset) = pushed ++ rest ∧
          (rest ≠ [] -> exists state entry, entry ∈ pushed.getLast? ∧
            (push state entry).2 = false)) ∧
      (forall (protocol : StopProtocol) (size : DirEntry -> Nat)
          (requests : Nat -> FaultFs.Request),
        (forall number entry, entry ∈ listing -> size entry ≤ (requests number).room) ->
        (forall number, exists k, (requests (number + k)).verdict = none) ->
        exists fuel, FaultFs.readAll protocol size ns requests ino fuel 0 0 [] =
          some listing)) := by
  refine ⟨ns.entries ino, ns.listing_zero directory, ns.entries_sorted ino,
    ns.listing_of_dir directory, ?_, ?_⟩
  · intro Sink push offset sink
    rcases Paging.feed_traced push (Paging.after DirEntry.offset (ns.entries ino) offset) sink []
      with ⟨pushed, rest, split, run, stopped⟩
    refine ⟨Paging.feed push sink (Paging.after DirEntry.offset (ns.entries ino) offset), pushed,
      rest, ?_, ns.readdir_eq_feed push directory offset sink, split, stopped⟩
    rw [ns.readdir_eq_feed _ directory, run, List.nil_append]
  · intro protocol size requests fits served
    have whole : Paging.after DirEntry.offset (ns.entries ino) 0 = ns.entries ino := by
      have full := ns.listing_zero directory
      rw [ns.listing_of_dir directory] at full
      exact Except.ok.inj full
    exact FaultFs.readAll_completes directory fits served _ 0 0 [] (by rw [whole]; rfl) rfl

/-- Three files read through replies that hold three entries, then one, with
one failed request. -/
theorem readdir_pages_complete_three_files :
    exists fuel, FaultFs.readAll .refuses (fun _ => 1)
        (.new { FilesConfig.default with inodeCount := 3 } 0 0 0)
        (fun number => { verdict := if number = 1 then some (.errno Libc.eio) else none,
                         room := if number = 0 then 3 else 1 })
        objectsIno fuel 0 0 [] =
      some [objectsDot, objectsDotDot, fileEntry 0, fileEntry 1, fileEntry 2] := by
  rcases readdir_pages_complete (.new { FilesConfig.default with inodeCount := 3 } 0 0 0) objectsIno
    (Or.inr rfl) with ⟨listing, lists, -, -, -, pages⟩
  have five : listing = [objectsDot, objectsDotDot, fileEntry 0, fileEntry 1, fileEntry 2] := by
    rw [listing_zero _ (Or.inr rfl)] at lists
    exact (Except.ok.inj lists).symm.trans rfl
  subst five
  refine pages .refuses (fun _ => 1) _ (fun number _ _ => ?_) (fun number => ?_)
  · simp only
    split <;> decide
  · refine ⟨2, ?_⟩
    simp

end Fusecraft
