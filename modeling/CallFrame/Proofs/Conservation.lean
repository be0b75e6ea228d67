import CallFrame.Proofs.FieldValues

/-!
# Conservation of bytes

In a run of reads each one begins where the one before it stopped, also where that one failed. No
byte is read twice and none is lost. After every read, the spans that the reads so far have
consumed, in their order, and what is unread behind them make up the buffer.

How much a read consumes depends on its kind.

* A read of fixed size consumes its size if there are enough bytes, and nothing if it fails.
* A read of a number of variable width consumes at least one byte if it finds a number. It
  consumes ten bytes at most, and this also where it fails.
-/

namespace CallFrame

namespace Reader

variable {α β : Type}

/-- No more than so many bytes are consumed, whether the read fails or not. -/
def AtMost (reader : Reader α) (limit : Nat) : Prop :=
  ∀ bytes, bytes.length ≤ (reader.run bytes).2.length + limit

theorem atMost_ofExcept
    (outcome : Except Fault α) :
    (ofExcept outcome).AtMost 0 :=
  fun _ => Nat.le_refl _

theorem atMost_u8 :
    u8.AtMost 1 := by
  intro bytes
  cases bytes with
  | nil =>
      exact Nat.zero_le _
  | cons byte rest =>
      exact Nat.le_refl _

theorem AtMost.bind
    {first : Reader α} {next : α → Reader β} {limit more : Nat} (hfirst : first.AtMost limit)
    (hnext : ∀ a, (next a).AtMost more) :
    (first >>= next).AtMost (limit + more) := by
  intro bytes
  have hlimit := hfirst bytes
  rcases hrun : first.run bytes with ⟨fault | a, middle⟩
  · rw [hrun] at hlimit
    rw [run_bind_error hrun]
    exact Nat.le_trans hlimit (Nat.add_le_add_left (Nat.le_add_right limit more) _)
  · have hmore := hnext a middle
    rw [hrun] at hlimit
    rw [run_bind_ok hrun]
    dsimp only at hlimit
    omega

theorem AtMost.ite
    {p : Prop} [Decidable p] {first second : Reader α} {limit : Nat}
    (hfirst : first.AtMost limit) (hsecond : second.AtMost limit) :
    (if p then first else second).AtMost limit := by
  split
  · exact hfirst
  · exact hsecond

theorem AtMost.mono
    {reader : Reader α} {limit more : Nat} (h : reader.AtMost limit) (hle : limit ≤ more) :
    reader.AtMost more :=
  fun bytes => Nat.le_trans (h bytes) (Nat.add_le_add_left hle _)

/-- A read that succeeds consumes something. -/
def Advances (reader : Reader α) : Prop :=
  ∀ bytes a rest, reader.run bytes = (.ok a, rest) → rest.length < bytes.length

theorem advances_u8 :
    u8.Advances := by
  intro bytes a rest hrun
  cases bytes with
  | nil =>
      cases hrun
  | cons byte bytes =>
      cases hrun
      exact Nat.lt_succ_self _

theorem Advances.bind
    {first : Reader α} (h : first.Advances) (next : α → Reader β) :
    (first >>= next).Advances := by
  intro bytes b rest hrun
  obtain ⟨a, middle, hfirst, hnext⟩ := run_bind_eq_ok_iff.mp hrun
  have hle := (next a).length_run_le middle
  rw [hnext] at hle
  exact Nat.lt_of_le_of_lt hle (h bytes a middle hfirst)

end Reader

namespace Leb128

theorem atMost_groups
    (room : Nat) :
    (groups room).AtMost room := by
  induction room with
  | zero =>
      exact Reader.atMost_ofExcept _
  | succ room ih =>
      have hlast (byte : UInt8) : (pure [byte] : Reader Bytes).AtMost room :=
        (Reader.atMost_ofExcept _).mono (Nat.zero_le room)
      have hgroups : (groups (room + 1)).AtMost (1 + room) :=
        Reader.atMost_u8.bind fun byte =>
          (hlast byte).ite (ih.bind fun rest => Reader.atMost_ofExcept (.ok (byte :: rest)))
      exact hgroups.mono (Nat.le_of_eq (Nat.add_comm 1 room))

theorem advances_groups
    (room : Nat) :
    (groups room).Advances := by
  cases room with
  | zero =>
      exact fun _ _ _ hrun => nomatch hrun
  | succ room =>
      exact Reader.advances_u8.bind _

theorem atMost_unsigned :
    unsigned.AtMost maxGroups :=
  (atMost_groups maxGroups).bind fun _ =>
    (Reader.atMost_ofExcept _).ite (Reader.atMost_ofExcept _)

theorem atMost_signed :
    signed.AtMost maxGroups :=
  (atMost_groups maxGroups).bind fun _ =>
    (Reader.atMost_ofExcept _).ite (Reader.atMost_ofExcept _)

end Leb128

namespace Transcript

namespace Request

/-- The bytes that a read consumes. -/
def span (order : ByteOrder) (request : Request) (bytes : Bytes) : Bytes :=
  bytes.take (bytes.length - ((request.reader order).run bytes).2.length)

theorem span_append
    (order : ByteOrder) (request : Request) (bytes : Bytes) :
    request.span order bytes ++ ((request.reader order).run bytes).2 = bytes := by
  -- This read alone is a run.
  simpa [spans, unread, span] using flatten_spans_append_unread order bytes [request]

end Request

/-- What a read of fixed size does with the bytes that are unread before it. -/
structure AllOrNone (order : ByteOrder) (size : Nat) (form : Form) (before : Bytes)
    (outcome : Except Fault Answer) (span : Bytes) : Prop where
  /-- It succeeds exactly if there are enough of them. -/
  isOk_iff : outcome.isOk ↔ size ≤ before.length
  /-- Then it consumes its size, and the answer is made of what it consumes. -/
  of_isOk : outcome.isOk → span.length = size ∧ outcome = .ok (form.answer order span)
  /-- Otherwise it consumes nothing, and reports how many of them there are. -/
  of_not_isOk : ¬ outcome.isOk → span = [] ∧ outcome = .error (.outOfBytes size before.length)

/-- What a read of a number of variable width does. -/
structure TakesGroups (outcome : Except Fault Answer) (span : Bytes) : Prop where
  /-- It consumes ten bytes at most. -/
  length_le : span.length ≤ 10
  /-- It consumes something if it succeeds. -/
  one_le_of_isOk : outcome.isOk → 1 ≤ span.length

/-- What a read does with the bytes that are unread before it. -/
def Request.IsServed (order : ByteOrder) (request : Request) (before : Bytes)
    (outcome : Except Fault Answer) (span : Bytes) : Prop :=
  match request.fixed? with
  | some (size, form) => AllOrNone order size form before outcome span
  | none => TakesGroups outcome span

theorem Request.allOrNone
    {request : Request} {size : Nat} {form : Form} (h : request.fixed? = some (size, form))
    (order : ByteOrder) (before : Bytes) :
    AllOrNone order size form before ((request.reader order).run before).1
      (request.span order before) := by
  have hfixed := request.fixed_reader h order
  have hspan := request.span_append order before
  by_cases hle : size ≤ before.length
  · have hlength := List.length_take_of_le hle
    have hrun := hfixed.run_append (before.take size) (before.drop size) hlength
    rw [List.take_append_drop] at hrun
    rw [hrun] at hspan ⊢
    -- What is left unread decides what the span is.
    have htake : request.span order before = before.take size :=
      List.append_cancel_right (hspan.trans (List.take_append_drop size before).symm)
    rw [htake]
    exact ⟨iff_of_true rfl hle, fun _ => ⟨hlength, rfl⟩, fun hnot => absurd rfl hnot⟩
  · have hrun := hfixed.run_of_lt before (Nat.not_le.mp hle)
    rw [hrun] at hspan ⊢
    have hnil : request.span order before = [] := List.append_left_eq_self.mp hspan
    refine ⟨iff_of_false Bool.false_ne_true hle, fun hok => absurd hok Bool.false_ne_true, ?_⟩
    exact fun _ => ⟨hnil, rfl⟩

theorem Request.atMost_reader
    {request : Request} (h : request.fixed? = none) (order : ByteOrder) :
    (request.reader order).AtMost 10 := by
  cases request with
  | unsigned =>
      exact Leb128.atMost_unsigned.bind fun _ => Reader.atMost_ofExcept _
  | signed =>
      exact Leb128.atMost_signed.bind fun _ => Reader.atMost_ofExcept _
  | u8 | i8 | u16 | i16 | u32 | u64 | take | skip =>
      cases h

theorem Request.advances_reader
    {request : Request} (h : request.fixed? = none) (order : ByteOrder) :
    (request.reader order).Advances := by
  cases request with
  | unsigned | signed =>
      exact ((Leb128.advances_groups _).bind _).bind _
  | u8 | i8 | u16 | i16 | u32 | u64 | take | skip =>
      cases h

theorem Request.takesGroups
    {request : Request} (h : request.fixed? = none) (order : ByteOrder) (before : Bytes) :
    TakesGroups ((request.reader order).run before).1 (request.span order before) := by
  have hlimit := request.atMost_reader h order before
  have hlength := congrArg List.length (request.span_append order before)
  rw [List.length_append] at hlength
  refine ⟨by omega, fun hok => ?_⟩
  rcases hrun : (request.reader order).run before with ⟨fault | answer, rest⟩
  · rw [hrun] at hok
    cases hok
  · have hlt := request.advances_reader h order before answer rest hrun
    rw [hrun] at hlength
    dsimp only at hlength
    omega

theorem Request.isServed
    (order : ByteOrder) (request : Request) (before : Bytes) :
    request.IsServed order before ((request.reader order).run before).1
      (request.span order before) := by
  rw [IsServed]
  split
  · rename_i size form hfixed
    exact request.allOrNone hfixed order before
  · rename_i hfixed
    exact request.takesGroups hfixed order before

section Places

variable (order : ByteOrder) (bytes : Bytes) (requests : List Request) (k : Nat)

@[simp] theorem length_ofRequests :
    (ofRequests order bytes requests).length = requests.length := by
  induction requests generalizing bytes with
  | nil =>
      rfl
  | cons request rest ih =>
      simp [ofRequests, ih]

@[simp] theorem length_spans :
    (spans order bytes requests).length = requests.length := by
  induction requests generalizing bytes with
  | nil =>
      rfl
  | cons request rest ih =>
      simp [spans, ih]

theorem unread_append
    (more : List Request) :
    unread order bytes (requests ++ more) = unread order (unread order bytes requests) more := by
  induction requests generalizing bytes with
  | nil =>
      rfl
  | cons request rest ih =>
      exact ih _

/-- The spans of the first reads are the first spans of the run. -/
theorem spans_take :
    spans order bytes (requests.take k) = (spans order bytes requests).take k := by
  induction requests generalizing bytes k with
  | nil =>
      simp [spans]
  | cons request rest ih =>
      cases k with
      | zero =>
          rfl
      | succ k =>
          simp [spans, ih]

/-- Every read of a run begins at what the reads before it left unread. -/
theorem getElem?_ofRequests :
    (ofRequests order bytes requests)[k]? =
      requests[k]?.map fun request =>
        (request.reader order).run (unread order bytes (requests.take k)) := by
  induction requests generalizing bytes k with
  | nil =>
      simp [ofRequests]
  | cons request rest ih =>
      cases k with
      | zero =>
          rfl
      | succ k =>
          simp [ofRequests, unread, ih]

theorem getElem?_spans :
    (spans order bytes requests)[k]? =
      requests[k]?.map fun request =>
        request.span order (unread order bytes (requests.take k)) := by
  induction requests generalizing bytes k with
  | nil =>
      simp [spans]
  | cons request rest ih =>
      cases k with
      | zero =>
          rfl
      | succ k =>
          simp [spans, unread, ih]

variable {requests k}

theorem unread_take_succ
    {request : Request} (h : requests[k]? = some request) :
    unread order bytes (requests.take (k + 1)) =
      ((request.reader order).run (unread order bytes (requests.take k))).2 := by
  rw [List.take_add_one, h, unread_append]
  rfl

end Places

/-- **Conservation.** For every buffer and every sequence of reads, each read has one outcome and
one span. After any number of reads, what is unread is a final part of the buffer, and the spans up
to there followed by it are the buffer. Each read splits what is unread before it into its span and
what is unread behind it: a read of fixed size consumes its size or nothing, as there are enough
bytes or not, and one of a number of variable width consumes ten bytes at most, and at least one if
it succeeds. A number of fixed size is the same in both byte orders if its bytes are reversed. -/
theorem ofRequests_conserve
    (order : ByteOrder) (buffer : Bytes) (requests : List Request) :
    (ofRequests order buffer requests).length = requests.length ∧
    (spans order buffer requests).length = requests.length ∧
    (∀ k, unread order buffer (requests.take k) <:+ buffer ∧
      ((spans order buffer requests).take k).flatten ++ unread order buffer (requests.take k) =
        buffer) ∧
    (∀ k request, requests[k]? = some request →
      ∃ outcome span,
        (ofRequests order buffer requests)[k]? =
          some (outcome, unread order buffer (requests.take (k + 1))) ∧
        (spans order buffer requests)[k]? = some span ∧
        unread order buffer (requests.take k) =
          span ++ unread order buffer (requests.take (k + 1)) ∧
        request.IsServed order (unread order buffer (requests.take k)) outcome span) ∧
    (∀ (request : Request) form (field after : Bytes),
      request.fixed? = some (field.length, form) → form ≠ .itself →
        (request.reader .big).run (field ++ after) =
          (request.reader .little).run (field.reverse ++ after)) := by
  refine ⟨length_ofRequests order buffer requests, length_spans order buffer requests, ?_, ?_, ?_⟩
  · intro k
    rw [← spans_take]
    exact ⟨unread_suffix order buffer _, flatten_spans_append_unread order buffer _⟩
  · intro k request hrequest
    refine ⟨_, _, ?_, ?_, ?_, request.isServed order (unread order buffer (requests.take k))⟩
    · rw [getElem?_ofRequests, hrequest, unread_take_succ order buffer hrequest]
      rfl
    · rw [getElem?_spans, hrequest]
      rfl
    · rw [unread_take_succ order buffer hrequest]
      exact (request.span_append order _).symm
  · exact fun request form field after h hform => request.run_big_eq h hform after

/-- Two reads that want too much, one of them as much as a word can say, and a number that is cut
off. Only the last of the three has consumed something. -/
example :
    ofRequests .big [0x92, 0x34, 0xff, 0x85, 0x80]
        [.take 0xffffffffffffffff, .i16, .u64, .i8, .unsigned, .skip 0] =
      [(.error (.outOfBytes 0xffffffffffffffff 5), [0x92, 0x34, 0xff, 0x85, 0x80]),
        (.ok (.number (-0x6dcc)), [0xff, 0x85, 0x80]),
        (.error (.outOfBytes 8 3), [0xff, 0x85, 0x80]), (.ok (.number (-1)), [0x85, 0x80]),
        (.error (.outOfBytes 1 0), []), (.ok .moved, [])] ∧
    spans .big [0x92, 0x34, 0xff, 0x85, 0x80]
        [.take 0xffffffffffffffff, .i16, .u64, .i8, .unsigned, .skip 0] =
      [[], [0x92, 0x34], [], [0xff], [0x85, 0x80], []] :=
  ⟨rfl, rfl⟩

end Transcript

end CallFrame
