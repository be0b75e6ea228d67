import CallFrame.Leb128
import CallFrame.Reader.Field

/-!
# Transcripts of reads

A sequence of reads over one byte string, where a failed read does not end the sequence:
the next one goes on at the place where it stopped. The transcript tells for each read its
outcome and what it left unread.

Main facts:

* after each read, what is unread is a final part of the byte string;
* the spans that the reads consumed, and what is left after them, are the byte string.
-/

namespace CallFrame

namespace Transcript

/-- A read that can be asked for. -/
inductive Request where
  | u8
  | i8
  | u16
  | i16
  | u32
  | u64
  /-- An unsigned number of variable width. -/
  | unsigned
  /-- A signed number of variable width. -/
  | signed
  /-- The next bytes themselves. -/
  | take (count : Nat)
  /-- The next bytes are passed over. -/
  | skip (count : Nat)
  deriving DecidableEq

/-- What a read gives. -/
inductive Answer where
  /-- A number. -/
  | number (n : Int)
  /-- Bytes. -/
  | bytes (bytes : Bytes)
  /-- Nothing but the new place. -/
  | moved
  deriving DecidableEq

/-- The read that a request asks for. -/
def Request.reader (order : ByteOrder) : Request → Reader Answer
  | .u8 => return .number (← Reader.u8).toNat
  | .i8 => return .number (← Reader.i8).toInt
  | .u16 => return .number (← Reader.u16 order).toNat
  | .i16 => return .number (← Reader.i16 order).toInt
  | .u32 => return .number (← Reader.u32 order).toNat
  | .u64 => return .number (← Reader.u64 order).toNat
  | .unsigned => return .number (← Leb128.unsigned).toNat
  | .signed => return .number (← Leb128.signed).toInt
  | .take count => return .bytes (← Reader.take count)
  | .skip count => do
    Reader.skip count
    return .moved

/-- The outcome of each read in turn, with what it left unread. -/
def ofRequests (order : ByteOrder) :
    Bytes → List Request → List (Except Fault Answer × Bytes)
  | _, [] => []
  | bytes, request :: rest =>
    let entry := (request.reader order).run bytes
    entry :: ofRequests order entry.2 rest

/-- What is unread after all the reads. -/
def unread (order : ByteOrder) : Bytes → List Request → Bytes
  | bytes, [] => bytes
  | bytes, request :: rest => unread order ((request.reader order).run bytes).2 rest

/-- The bytes that each read in turn consumed. -/
def spans (order : ByteOrder) : Bytes → List Request → List Bytes
  | _, [] => []
  | bytes, request :: rest =>
    let behind := ((request.reader order).run bytes).2
    bytes.take (bytes.length - behind.length) :: spans order behind rest

/-- What is unread at the end is a final part of the byte string. -/
theorem unread_suffix
    (order : ByteOrder) (bytes : Bytes) (requests : List Request) :
    unread order bytes requests <:+ bytes := by
  induction requests generalizing bytes with
  | nil =>
      exact List.suffix_refl bytes
  | cons request rest ih =>
      exact (ih _).trans ((request.reader order).run_suffix bytes)

/-- The consumed spans and what is left after them make up the byte string. -/
theorem flatten_spans_append_unread
    (order : ByteOrder) (bytes : Bytes)
    (requests : List Request) :
    (spans order bytes requests).flatten ++ unread order bytes requests = bytes := by
  induction requests generalizing bytes with
  | nil =>
      rfl
  | cons request rest ih =>
      obtain ⟨front, hfront⟩ := (request.reader order).run_suffix bytes
      have hlength := congrArg List.length hfront
      rw [List.length_append] at hlength
      have htake : bytes.take (bytes.length - ((request.reader order).run bytes).2.length) =
          front := by
        rw [← hlength, Nat.add_sub_cancel]
        conv => lhs; rw [← hfront]
        rw [List.take_left]
      rw [spans, unread, List.flatten_cons, List.append_assoc, ih, htake, hfront]

/-- One reader again and again until nothing is left unread, failures included. Ends also
where a read consumes nothing. -/
def exhaust {α : Type} (reader : Reader α) (bytes : Bytes) :
    List (Except Fault α × Bytes) :=
  if bytes = [] then
    []
  else
    let entry := reader.run bytes
    if entry.2.length < bytes.length then
      entry :: exhaust reader entry.2
    else
      [entry]
termination_by bytes.length

end Transcript

end CallFrame
