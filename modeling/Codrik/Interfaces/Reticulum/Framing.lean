import Codrik.Interfaces.Reticulum.Bridge
import Mathlib.Data.List.Infix

/-! Which dropped calls of `next_event` lose nothing: the lines of the bridge come through exactly
when no call is dropped in the middle of one.
-/

namespace Codrik.Interfaces.Reticulum

-----------------------------------------------------------------------------------------
-- One line
-----------------------------------------------------------------------------------------

/-- Bytes without a line end are taken whole. -/
theorem takeLine_more {line available : List UInt8} (some : available ≠ [])
    (noEnd : 10 ∉ available) (short : line.length + available.length ≤ maxProtocolLineBytes)
    : takeLine line available = .more (line ++ available) := by
  have notFound : available.findIdx? (· = 10) = none := by
    rw [List.findIdx?_eq_none_iff]
    intro byte mem
    exact decide_eq_false (fun same => noEnd (same ▸ mem))
  have last : (line ++ available).getLast? ≠ Option.some 10 := by
    rw [List.getLast?_append_of_ne_nil _ some]
    exact fun ends => noEnd (List.mem_of_getLast? ends)
  simp only [takeLine, notFound, List.take_length, if_neg (not_lt.mpr short), if_neg last]

/-- Bytes with a line end complete the line. -/
theorem takeLine_complete {line more rest : List UInt8} (noEnd : 10 ∉ more)
    (short : line.length + more.length + 1 ≤ maxProtocolLineBytes)
    : takeLine line (more ++ 10 :: rest) = .complete (line ++ more) rest := by
  have found : (more ++ 10 :: rest).findIdx? (· = 10) = some more.length := by
    have notFound : more.findIdx? (· = 10) = none := by
      rw [List.findIdx?_eq_none_iff]
      intro byte mem
      exact decide_eq_false (fun same => noEnd (same ▸ mem))
    rw [List.findIdx?_append, notFound]
    simp [List.findIdx?_cons]
  have taken : (more ++ 10 :: rest).take (more.length + 1) = more ++ [10] := by
    rw [List.append_cons, List.take_left' (by simp)]
  have left : (more ++ 10 :: rest).drop (more.length + 1) = rest := by
    rw [List.append_cons, List.drop_left' (by simp)]
  have within : ¬line.length + (more.length + 1) > maxProtocolLineBytes := by omega
  simp only [takeLine, found, if_neg within, taken, left, ← List.append_assoc,
    List.getLast?_concat, if_true, List.dropLast_concat]

/-- Every read gets something. -/
def Flowing (reads : List (List UInt8)) : Prop := [] ∉ reads

instance (reads : List (List UInt8)) : Decidable (Flowing reads) :=
  inferInstanceAs (Decidable ([] ∉ reads))

/-- Without a line end in its reads a call waits until it is dropped, by induction on the reads.
-/
theorem awaitLine_dropped {patience : Nat} {line : List UInt8} {reads : List (List UInt8)}
    (flowing : Flowing reads) (noEnd : 10 ∉ (reads.take patience).flatten)
    (short : line.length + (reads.take patience).flatten.length ≤ maxProtocolLineBytes)
    : awaitLine patience line reads = (.dropped, ⟨[], reads.drop patience⟩) := by
  induction reads generalizing patience line with
  | nil => cases patience <;> rfl
  | cons available rest ih =>
      cases patience with
      | zero => rfl
      | succ patience =>
          rw [List.take_succ_cons, List.flatten_cons] at noEnd short
          rw [List.mem_append, not_or] at noEnd
          rw [List.length_append] at short
          have some : available ≠ [] := fun none => flowing (none ▸ List.mem_cons_self)
          rw [awaitLine, if_neg some, takeLine_more some noEnd.1 (by omega)]
          refine ih (fun mem => flowing (List.mem_cons_of_mem _ mem)) noEnd.2 ?_
          rw [List.length_append]
          omega

/-- With a line end in its reads a call returns the line, by induction on the reads. -/
theorem awaitLine_completed {patience : Nat} {line more rest : List UInt8}
    {reads : List (List UInt8)} (flowing : Flowing reads)
    (ends : 10 ∈ (reads.take patience).flatten) (content : reads.flatten = more ++ 10 :: rest)
    (noEnd : 10 ∉ more) (short : line.length + more.length + 1 ≤ maxProtocolLineBytes)
    : ∃ reader, awaitLine patience line reads = (.completed (.ok (line ++ more)), reader)
      ∧ reader.buffer ++ reader.reads.flatten = rest ∧ Flowing reader.reads := by
  induction reads generalizing patience line more with
  | nil => simp at ends
  | cons available later ih =>
      cases patience with
      | zero => simp at ends
      | succ patience =>
          have some : available ≠ [] := fun none => flowing (none ▸ List.mem_cons_self)
          have flowing' : Flowing later := fun mem => flowing (List.mem_cons_of_mem _ mem)
          rw [List.flatten_cons] at content
          rw [List.take_succ_cons, List.flatten_cons] at ends
          rw [awaitLine, if_neg some]
          rcases List.append_eq_append_iff.mp content with ⟨missing, whole, left⟩ | ⟨excess, whole, left⟩
          · -- the line goes on after these bytes
            have without : 10 ∉ available := fun mem => noEnd (whole ▸ List.mem_append_left _ mem)
            have length := congrArg List.length whole
            rw [List.length_append] at length
            rw [takeLine_more some without (by omega)]
            have ends' : 10 ∈ (later.take patience).flatten :=
              (List.mem_append.mp ends).resolve_left without
            have short' : (line ++ available).length + missing.length + 1
                ≤ maxProtocolLineBytes := by
              rw [List.length_append]
              omega
            obtain ⟨reader, read, contents, flows⟩ := ih flowing' ends' left
              (fun mem => noEnd (whole ▸ List.mem_append_right _ mem)) short'
            refine ⟨reader, ?_, contents, flows⟩
            rw [whole, ← List.append_assoc]
            exact read
          · cases excess with
            | nil =>
                -- the line end is the first byte of the next read
                rw [List.append_nil] at whole
                rw [List.nil_append] at left
                subst whole
                rw [takeLine_more some noEnd (by omega)]
                have ends' : 10 ∈ (later.take patience).flatten :=
                  (List.mem_append.mp ends).resolve_left noEnd
                have short' : (line ++ available).length + ([] : List UInt8).length + 1
                    ≤ maxProtocolLineBytes := by
                  rw [List.length_append]
                  exact short
                obtain ⟨reader, read, contents, flows⟩ := ih flowing' ends'
                  left.symm List.not_mem_nil short'
                exact ⟨reader, by simpa using read, contents, flows⟩
            | cons first excess =>
                injection left with first' left
                subst first'
                rw [whole, takeLine_complete noEnd short]
                exact ⟨_, rfl, left.symm, flowing'⟩

-----------------------------------------------------------------------------------------
-- One call
-----------------------------------------------------------------------------------------

/-- What has not been consumed yet. -/
def BufReader.content (reader : BufReader) : List UInt8 := reader.buffer ++ reader.reads.flatten

/-- What a call gets to see before it is dropped. -/
def BufReader.atHand (reader : BufReader) (patience : Nat) : List UInt8 :=
  reader.buffer ++ (reader.reads.take patience).flatten

/-- A buffer is taken like a read of its own. -/
theorem readProtocolLine_buffer {patience : Nat} {reader : BufReader}
    (some : reader.buffer ≠ [])
    : readProtocolLine patience reader
      = awaitLine (patience + 1) [] (reader.buffer :: reader.reads) := by
  rw [readProtocolLine, awaitLine, if_neg some, if_neg some]

/-- Without a line end at hand a call is dropped, and what is at hand with it. -/
theorem readProtocolLine_dropped {patience : Nat} {reader : BufReader}
    (flowing : Flowing reader.reads) (noEnd : 10 ∉ reader.atHand patience)
    (short : (reader.atHand patience).length ≤ maxProtocolLineBytes)
    : readProtocolLine patience reader = (.dropped, ⟨[], reader.reads.drop patience⟩) := by
  by_cases empty : reader.buffer = []
  · rw [BufReader.atHand, empty, List.nil_append] at noEnd short
    rw [readProtocolLine, if_pos empty]
    exact awaitLine_dropped flowing noEnd (by rw [List.length_nil, Nat.zero_add]; exact short)
  · rw [readProtocolLine_buffer empty]
    refine awaitLine_dropped ?_ noEnd (by rw [List.length_nil, Nat.zero_add]; exact short)
    intro mem
    rcases List.mem_cons.mp mem with same | later
    · exact empty same.symm
    · exact flowing later

/-- With a line end at hand a call returns the line before it. -/
theorem readProtocolLine_completed {patience : Nat} {reader : BufReader} {line rest : List UInt8}
    (flowing : Flowing reader.reads) (ends : 10 ∈ reader.atHand patience)
    (content : reader.content = line ++ 10 :: rest) (noEnd : 10 ∉ line)
    (short : line.length + 1 ≤ maxProtocolLineBytes)
    : ∃ next, readProtocolLine patience reader = (.completed (.ok line), next)
      ∧ next.content = rest ∧ Flowing next.reads := by
  have short' : ([] : List UInt8).length + line.length + 1 ≤ maxProtocolLineBytes := by
    rw [List.length_nil, Nat.zero_add]
    exact short
  by_cases empty : reader.buffer = []
  · rw [BufReader.atHand, empty, List.nil_append] at ends
    rw [BufReader.content, empty, List.nil_append] at content
    rw [readProtocolLine, if_pos empty]
    exact awaitLine_completed flowing ends content noEnd short'
  · rw [readProtocolLine_buffer empty]
    refine awaitLine_completed ?_ ends content noEnd short'
    intro mem
    rcases List.mem_cons.mp mem with same | later
    · exact empty same.symm
    · exact flowing later

-----------------------------------------------------------------------------------------
-- Events
-----------------------------------------------------------------------------------------

section Events

variable {parse : List UInt8 → Except String BridgeEvent}

/-- A line that the bridge has written for an event; the rest of a line whose beginning is missing
is no JSON text.
-/
structure Written (parse : List UInt8 → Except String BridgeEvent)
    (entry : BridgeEvent × List UInt8) : Prop where
  oneLine : 10 ∉ entry.2
  short : entry.2.length + 1 ≤ maxProtocolLineBytes
  decodes : decodeEvent parse entry.2 = .ok entry.1
  beginning : ∀ rest, rest <:+ entry.2 → rest ≠ entry.2 → ∀ event, parse rest ≠ .ok event

/-- The lines of events, one after the other. -/
def stream (written : List (BridgeEvent × List UInt8)) : List UInt8 :=
  written.flatMap (fun entry => entry.2 ++ [10])

theorem stream_cons (entry : BridgeEvent × List UInt8) (rest : List (BridgeEvent × List UInt8))
    : stream (entry :: rest) = entry.2 ++ 10 :: stream rest := by
  rw [stream, List.flatMap_cons, List.append_assoc]
  rfl

/-- The calls that return have returned the first events as they are, and the others are still to
be read.
-/
def Faithful (parse : List UInt8 → Except String BridgeEvent)
    (written : List (BridgeEvent × List UInt8)) (calls : List Nat) (reader : BufReader) : Prop :=
  ∃ returned, (nextEvents parse calls reader).1 = (written.take returned).map (fun entry => .ok entry.1)
    ∧ (nextEvents parse calls reader).2.content = stream (written.drop returned)

/-- The call is dropped before it has seen anything, or sees the end of a line. -/
def Undisturbed (patience : Nat) (reader : BufReader) : Prop :=
  reader.atHand patience = [] ∨ 10 ∈ reader.atHand patience

/-- No call is dropped in the middle of a line. -/
def UndisturbedCalls (parse : List UInt8 → Except String BridgeEvent)
    : List Nat → BufReader → Prop
  | [], _ => True
  | patience :: later, reader =>
      Undisturbed patience reader
        ∧ UndisturbedCalls parse later (nextEvent parse patience reader).2

theorem nextEvents_dropped {patience : Nat} {later : List Nat} {reader next : BufReader}
    (read : readProtocolLine patience reader = (.dropped, next))
    : nextEvents parse (patience :: later) reader = nextEvents parse later next := by
  simp only [nextEvents, nextEvent, read]

theorem nextEvents_completed {patience : Nat} {later : List Nat} {reader next : BufReader}
    {result : Except String (List UInt8)}
    (read : readProtocolLine patience reader = (.completed result, next))
    : nextEvents parse (patience :: later) reader
      = ((result >>= decodeEvent parse) :: (nextEvents parse later next).1,
        (nextEvents parse later next).2) := by
  simp only [nextEvents, nextEvent, read]

/-- What a dropped call leaves. -/
theorem content_drop (patience : Nat) (reader : BufReader)
    : reader.content = reader.atHand patience ++ (reader.reads.drop patience).flatten := by
  rw [BufReader.content, BufReader.atHand, List.append_assoc, ← List.flatten_append,
    List.take_append_drop]

theorem Flowing.drop {reads : List (List UInt8)} (flowing : Flowing reads) (n : Nat)
    : Flowing (reads.drop n) :=
  fun mem => flowing (List.mem_of_mem_drop mem)

/-- Bytes at hand without a line end are the beginning of the next line. -/
theorem atHand_prefix {patience : Nat} {reader : BufReader} {entry : BridgeEvent × List UInt8}
    {rest : List (BridgeEvent × List UInt8)} (content : reader.content = stream (entry :: rest))
    (noEnd : 10 ∉ reader.atHand patience)
    : ∃ missing, entry.2 = reader.atHand patience ++ missing
      ∧ (reader.reads.drop patience).flatten = missing ++ 10 :: stream rest := by
  rw [content_drop patience reader, stream_cons] at content
  rcases List.append_eq_append_iff.mp content with ⟨missing, whole, left⟩ | ⟨excess, whole, left⟩
  · exact ⟨missing, whole, left⟩
  · cases excess with
    | nil =>
        rw [List.append_nil] at whole
        exact ⟨[], by rw [whole, List.append_nil], left.symm⟩
    | cons first excess =>
        injection left with first' left
        refine absurd ?_ noEnd
        rw [whole, first']
        exact List.mem_append_right _ List.mem_cons_self

/-- A call that is dropped before it has seen anything consumes nothing. -/
theorem readProtocolLine_untouched {patience : Nat} {reader : BufReader}
    (flowing : Flowing reader.reads) (nothing : reader.atHand patience = [])
    : ∃ next, readProtocolLine patience reader = (.dropped, next)
      ∧ next.content = reader.content ∧ Flowing next.reads := by
  refine ⟨_, readProtocolLine_dropped flowing (nothing ▸ List.not_mem_nil)
    (nothing ▸ Nat.zero_le _), ?_, flowing.drop patience⟩
  rw [content_drop patience reader, nothing]
  rfl

/-- An event that is decoded has been read from its line. -/
theorem parse_of_decodeEvent {line : List UInt8} {event : BridgeEvent}
    (decoded : decodeEvent parse line = .ok event)
    : ∃ read, parse line = .ok read := by
  unfold decodeEvent at decoded
  cases parsed : parse line with
  | error message =>
      rw [parsed] at decoded
      cases checked : ensure (line.length ≤ maxProtocolLineBytes)
          "Reticulum bridge protocol line is too large" <;> rw [checked] at decoded <;> cases decoded
  | ok read => exact ⟨read, rfl⟩

/-- Once the beginning of a line is lost, no call returns its event, by induction on the calls.
-/
theorem nextEvents_lost {entry : BridgeEvent × List UInt8}
    {more : List (BridgeEvent × List UInt8)} (written : Written parse entry) (calls : List Nat)
    {reader : BufReader} {rest : List UInt8} (flowing : Flowing reader.reads)
    (suffix : rest <:+ entry.2) (lost : rest ≠ entry.2)
    (content : reader.content = rest ++ 10 :: stream more)
    : (nextEvents parse calls reader).1 = []
        ∧ (nextEvents parse calls reader).2.content.length < (stream (entry :: more)).length
      ∨ ∃ result others, (nextEvents parse calls reader).1 = result :: others
        ∧ ∀ event, result ≠ .ok event := by
  have less : rest.length < entry.2.length :=
    lt_of_le_of_ne suffix.length_le (fun same => lost (suffix.eq_of_length same))
  have oneLine : 10 ∉ rest := fun mem => written.oneLine (suffix.subset mem)
  have short := written.short
  induction calls generalizing reader rest with
  | nil =>
      refine Or.inl ⟨rfl, ?_⟩
      rw [nextEvents, content, stream_cons, List.length_append, List.length_append]
      omega
  | cons patience later ih =>
      by_cases ends : 10 ∈ reader.atHand patience
      · obtain ⟨next, read, -, -⟩ :=
          readProtocolLine_completed flowing ends content oneLine (by omega)
        rw [nextEvents_completed read]
        refine Or.inr ⟨_, _, rfl, fun event decoded => ?_⟩
        obtain ⟨read, parsed⟩ := parse_of_decodeEvent decoded
        exact written.beginning rest suffix lost read parsed
      · have content' : reader.content = stream ((entry.1, rest) :: more) :=
          content.trans (stream_cons (entry.1, rest) more).symm
        obtain ⟨missing, whole, left⟩ := atHand_prefix content' ends
        have within : missing <:+ rest := ⟨_, whole.symm⟩
        have bound : (reader.atHand patience).length ≤ maxProtocolLineBytes := by
          have := congrArg List.length whole
          rw [List.length_append] at this
          change rest.length = _ at this
          omega
        rw [nextEvents_dropped (readProtocolLine_dropped flowing ends bound)]
        have shorter := within.length_le
        refine ih (flowing.drop patience) (within.trans suffix) ?_ left ?_ ?_
        · rintro rfl
          omega
        · omega
        · exact fun mem => oneLine (within.subset mem)

/-- A call that sees the end of a line returns the event of the line. -/
theorem nextEvents_returns {entry : BridgeEvent × List UInt8}
    {more : List (BridgeEvent × List UInt8)} (written : Written parse entry) {patience : Nat}
    (later : List Nat) {reader : BufReader} (flowing : Flowing reader.reads)
    (content : reader.content = stream (entry :: more)) (ends : 10 ∈ reader.atHand patience)
    : ∃ next, nextEvent parse patience reader = (.completed (.ok entry.1), next)
      ∧ nextEvents parse (patience :: later) reader
        = (.ok entry.1 :: (nextEvents parse later next).1, (nextEvents parse later next).2)
      ∧ next.content = stream more ∧ Flowing next.reads := by
  rw [stream_cons] at content
  obtain ⟨next, read, left, flows⟩ :=
    readProtocolLine_completed flowing ends content written.oneLine written.short
  have decoded : ((.ok entry.2 : Except String (List UInt8)) >>= decodeEvent parse) = .ok entry.1 :=
    written.decodes
  refine ⟨next, ?_, ?_, left, flows⟩
  · simp only [nextEvent, read, decoded]
  · rw [nextEvents_completed read, decoded]

/-- The lines come through exactly when no call is dropped in the middle of one, by induction on
the calls.
-/
theorem faithful_iff {written : List (BridgeEvent × List UInt8)}
    (valid : ∀ entry ∈ written, Written parse entry) {calls : List Nat} {reader : BufReader}
    (flowing : Flowing reader.reads) (content : reader.content = stream written)
    : Faithful parse written calls reader ↔ UndisturbedCalls parse calls reader := by
  induction calls generalizing written reader with
  | nil => exact ⟨fun _ => trivial, fun _ => ⟨0, rfl, content⟩⟩
  | cons patience later ih =>
      by_cases nothing : reader.atHand patience = []
      · obtain ⟨next, read, same, flows⟩ := readProtocolLine_untouched flowing nothing
        have after : (nextEvent parse patience reader).2 = next := by
          simp only [nextEvent, read]
        have step := ih valid flows (same.trans content)
        unfold Faithful at step ⊢
        rw [nextEvents_dropped read, step, UndisturbedCalls, after]
        exact ⟨fun rest => ⟨Or.inl nothing, rest⟩, And.right⟩
      by_cases ends : 10 ∈ reader.atHand patience
      · cases written with
        | nil =>
            have none : reader.content = [] := content
            rw [content_drop patience reader, List.append_eq_nil_iff] at none
            exact absurd none.1 nothing
        | cons entry more =>
            obtain ⟨next, called, results, left, flows⟩ :=
              nextEvents_returns (valid entry List.mem_cons_self) later flowing content ends
            have step := ih (fun other mem => valid other (List.mem_cons_of_mem _ mem)) flows left
            rw [UndisturbedCalls, called, ← step]
            unfold Faithful
            rw [results]
            constructor
            · rintro ⟨returned, same, rest⟩
              cases returned with
              | zero => cases same
              | succ returned =>
                  rw [List.take_succ_cons, List.map_cons] at same
                  injection same with _ same
                  exact ⟨Or.inr ends, returned, same, rest⟩
            · rintro ⟨-, returned, same, rest⟩
              refine ⟨returned + 1, ?_, rest⟩
              rw [List.take_succ_cons, List.map_cons, same]
      · -- what is at hand is the beginning of a line, and lost
        refine iff_of_false ?_ (fun undisturbed => undisturbed.1.elim nothing ends)
        cases written with
        | nil =>
            have none : reader.content = [] := content
            rw [content_drop patience reader, List.append_eq_nil_iff] at none
            exact absurd none.1 nothing
        | cons entry more =>
            have valid' := valid entry List.mem_cons_self
            obtain ⟨missing, whole, left⟩ := atHand_prefix content ends
            have length := congrArg List.length whole
            rw [List.length_append] at length
            have short := valid'.short
            have seen := List.length_pos_of_ne_nil nothing
            rintro ⟨returned, same, rest⟩
            rw [nextEvents_dropped (readProtocolLine_dropped flowing ends (by omega))] at same rest
            have lost : missing ≠ entry.2 := by
              rintro rfl
              omega
            have left' : (⟨[], reader.reads.drop patience⟩ : BufReader).content
                = missing ++ 10 :: stream more := left
            rcases nextEvents_lost valid' later (flowing.drop patience) ⟨_, whole.symm⟩ lost left'
              with ⟨none, fewer⟩ | ⟨result, others, some, failed⟩
            · rw [none] at same
              cases returned with
              | zero =>
                  rw [rest] at fewer
                  exact absurd fewer (lt_irrefl _)
              | succ returned => cases same
            · rw [some] at same
              cases returned with
              | zero => cases same
              | succ returned =>
                  rw [List.take_succ_cons, List.map_cons] at same
                  injection same with same _
                  exact failed _ same

/-- However the lines of the bridge are cut into reads, and whichever calls are dropped, the calls
that return have returned the events in order and left the others to be read exactly when no
call was dropped in the middle of a line.
-/
theorem bridge_events_come_through_iff {written : List (BridgeEvent × List UInt8)}
    (valid : ∀ entry ∈ written, Written parse entry) {reads : List (List UInt8)}
    (flowing : Flowing reads) (cut : reads.flatten = stream written) (calls : List Nat)
    : Faithful parse written calls ⟨[], reads⟩ ↔ UndisturbedCalls parse calls ⟨[], reads⟩ :=
  faithful_iff valid flowing cut

end Events

namespace Torn

def event : BridgeEvent := .fatal "link down"

def line : List UInt8 :=
  (Encoding.Json.obj [("type", .str "fatal"), ("error", .str "link down")]).toBytes

/-- The line is read as its event, and its pieces are no JSON. -/
def parse (bytes : List UInt8) : Except String BridgeEvent :=
  if bytes = line then .ok event else .error "expected value at line 1 column 1"

theorem written : ∀ entry ∈ [(event, line)], Written parse entry := by
  intro entry mem
  obtain rfl := List.mem_singleton.mp mem
  refine ⟨by decide +kernel, by decide +kernel, by decide +kernel, ?_⟩
  intro rest suffix differs event read
  rw [parse, if_neg differs] at read
  cases read

end Torn

/-- A line that is read at once comes through, after a call that was dropped before it came. -/
theorem bridge_events_come_through_iff_whole
    : Faithful Torn.parse [(Torn.event, Torn.line)] [0, 1] ⟨[], [Torn.line ++ [10]]⟩ := by
  refine (bridge_events_come_through_iff Torn.written ?_ ?_ _).mpr
    ⟨Or.inl rfl, Or.inr ?_, trivial⟩
  · decide +kernel
  · decide +kernel
  · decide +kernel

/-- A call that is dropped between two reads of one line loses the first of them. -/
theorem torn_line_is_lost
    : (∀ entry ∈ [(Torn.event, Torn.line)], Written Torn.parse entry)
      ∧ [Torn.line.take 9, Torn.line.drop 9 ++ [10]].flatten = stream [(Torn.event, Torn.line)]
      ∧ (nextEvents Torn.parse [1, 1] ⟨[], [Torn.line.take 9, Torn.line.drop 9 ++ [10]]⟩).1
        = [.error "expected value at line 1 column 1"]
      ∧ ¬Faithful Torn.parse [(Torn.event, Torn.line)] [1, 1]
        ⟨[], [Torn.line.take 9, Torn.line.drop 9 ++ [10]]⟩ := by
  have results : (nextEvents Torn.parse [1, 1]
      ⟨[], [Torn.line.take 9, Torn.line.drop 9 ++ [10]]⟩).1
        = [.error "expected value at line 1 column 1"] := by decide +kernel
  refine ⟨Torn.written, by decide +kernel, results, ?_⟩
  rintro ⟨returned, same, -⟩
  rw [results] at same
  cases returned with
  | zero => cases same
  | succ returned =>
      injection same with same _
      cases same

end Codrik.Interfaces.Reticulum
