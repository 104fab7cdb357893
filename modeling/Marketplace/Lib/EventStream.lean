import Mathlib.Data.List.Basic

/-!
# `text/event-stream`

A stream is lines, and a blank line ends a message: what has come of a message before its blank line
does not count. A client goes through a stream one character at a time, and keeps the id of the last
message for the streams that it opens later. When it opens them is not said, so `retry` has no
effect here.
-/

namespace EventStream

abbrev Text := List Char

structure Message where
  eventType : Text
  data : Text
  lastEventId : Text
  deriving DecidableEq

/-- What a client keeps from one stream to the next. -/
structure Client where
  lastEventId : Text
  messages : List Message
  deriving DecidableEq

/-- `line` has not ended; after a carriage return, a line feed belongs to the same end of line. -/
structure Reader where
  client : Client
  line : Text
  afterReturn : Bool
  data : Text
  eventType : Text
  idBuffer : Text

/-- A new stream begins with the id that the client has kept, as in browsers: a message without an
id does not take it back. In the text of the standard the buffer of each stream begins empty. -/
def Reader.ofClient (client : Client) : Reader := ⟨client, [], false, [], [], client.lastEventId⟩

namespace Reader

variable (reader : Reader)

def fieldData : Text := ['d', 'a', 't', 'a']

def fieldEvent : Text := ['e', 'v', 'e', 'n', 't']

def fieldId : Text := ['i', 'd']

def field (name value : Text) : Reader :=
  if name = fieldEvent then { reader with eventType := value }
  else if name = fieldData then { reader with data := reader.data ++ value ++ ['\n'] }
  else if name = fieldId ∧ Char.ofNat 0 ∉ value then { reader with idBuffer := value }
  else reader

def typeMessage : Text := ['m', 'e', 's', 's', 'a', 'g', 'e']

def message : Message where
  eventType := if reader.eventType = [] then typeMessage else reader.eventType
  data := reader.data.dropLast
  lastEventId := reader.idBuffer

def dispatch : Reader :=
  { reader with
    data := []
    eventType := []
    client.lastEventId := reader.idBuffer
    client.messages :=
      if reader.data = [] then reader.client.messages else reader.client.messages ++
        [reader.message] }

/-- What follows the colon, less one space. -/
def fieldValue (rest : Text) : Text :=
  match rest.tail with
  | ' ' :: value => value
  | value => value

/-- A comment is a field without a name. -/
def readLine (line : Text) : Reader :=
  if line = [] then reader.dispatch
  else reader.field (line.takeWhile (· ≠ ':')) (fieldValue (line.dropWhile (· ≠ ':')))

def endLine : Reader := { reader with line := [] }.readLine reader.line

def readChar (char : Char) : Reader :=
  if char = '\n' then
    if reader.afterReturn then { reader with afterReturn := false } else reader.endLine
  else if char = '\r' then { reader.endLine with afterReturn := true }
  else { reader with line := reader.line ++ [char], afterReturn := false }

def read (text : Text) : Reader := text.foldl readChar reader

end Reader

/-! ### Lines -/

def Clean (text : Text) : Prop := ∀ char ∈ text, char ≠ '\n' ∧ char ≠ '\r'

def writeLines (lines : List Text) : Text := lines.flatMap (· ++ ['\n'])

namespace Reader

variable {reader : Reader} {line received junk : Text} {lines : List Text}

/-- At the beginning of a line. -/
def Fresh (reader : Reader) : Prop := reader.line = [] ∧ reader.afterReturn = false

theorem fresh_ofClient (client : Client) : (ofClient client).Fresh := ⟨rfl, rfl⟩

theorem fresh_field (hfresh : reader.Fresh) (name value : Text) :
    (reader.field name value).Fresh := by
  unfold field
  split_ifs <;> exact hfresh

theorem fresh_readLine (hfresh : reader.Fresh) (line : Text) : (reader.readLine line).Fresh := by
  unfold readLine
  split_ifs
  · exact hfresh
  · exact fresh_field hfresh _ _

theorem read_append (reader : Reader) (left right : Text) :
    reader.read (left ++ right) = (reader.read left).read right :=
  List.foldl_append

theorem read_clean (hafter : reader.afterReturn = false) (hclean : Clean line) :
    reader.read line = { reader with line := reader.line ++ line } := by
  induction line generalizing reader with
  | nil => simp [read]
  | cons char rest ih =>
      have hchar := hclean char List.mem_cons_self
      have hread : reader.readChar char = { reader with line := reader.line ++ [char] } := by
        simp [readChar, hchar.1, hchar.2, hafter]
      change (reader.readChar char).read rest = _
      rw [hread, ih _ fun other hother => hclean other (List.mem_cons_of_mem char hother)]
      · simp
      · exact hafter

theorem read_line (hfresh : reader.Fresh) (hclean : Clean line) :
    reader.read (line ++ ['\n']) = reader.readLine line := by
  obtain ⟨hline, hafter⟩ := hfresh
  have hsame : { reader with line := [] } = reader := by rw [← hline]
  rw [read_append, read_clean hafter hclean, hline, List.nil_append]
  change ({ reader with line := line } : Reader).readChar '\n' = _
  rw [readChar, if_pos rfl, if_neg (by simp [hafter]), endLine]
  change ({ reader with line := [] } : Reader).readLine line = _
  rw [hsame]

theorem read_writeLines (hfresh : reader.Fresh) (hclean : ∀ line ∈ lines, Clean line) :
    reader.read (writeLines lines) = lines.foldl readLine reader := by
  induction lines generalizing reader with
  | nil => rfl
  | cons line rest ih =>
      rw [writeLines, List.flatMap_cons, read_append,
        read_line hfresh (hclean line List.mem_cons_self), List.foldl_cons]
      exact ih (fresh_readLine hfresh line) fun other hother =>
        hclean other (List.mem_cons_of_mem line hother)

/-- Of a stream that is cut off anywhere, a client has read the first lines; `junk` is what its
decoder makes of half a character. -/
theorem read_cut (hfresh : reader.Fresh) (hclean : ∀ line ∈ lines, Clean line)
    (hbegin : received <+: writeLines lines) (hjunk : Clean junk) :
    ∃ count pending, reader.read (received ++ junk) =
      { (lines.take count).foldl readLine reader with line := pending } := by
  induction lines generalizing reader received with
  | nil =>
      rw [List.prefix_nil.mp hbegin, List.nil_append]
      exact ⟨0, _, read_clean hfresh.2 hjunk⟩
  | cons line rest ih =>
      have hline := hclean line List.mem_cons_self
      have hrest : ∀ other ∈ rest, Clean other := fun other hother =>
        hclean other (List.mem_cons_of_mem line hother)
      rw [writeLines, List.flatMap_cons] at hbegin
      -- the cut is in this line, or it is after it
      rcases List.prefix_or_prefix_of_prefix hbegin (List.prefix_append _ _) with hshort | hlong
      · rcases List.prefix_concat_iff.mp hshort with rfl | hinside
        · refine ⟨1, junk, ?_⟩
          rw [read_append, read_line hfresh hline,
            read_clean (fresh_readLine hfresh line).2 hjunk, (fresh_readLine hfresh line).1]
          rfl
        · refine ⟨0, received ++ junk, ?_⟩
          rw [read_clean hfresh.2, hfresh.1]
          · rfl
          · intro char hchar
            rcases List.mem_append.mp hchar with hreceived | hjunked
            · exact hline char (hinside.mem hreceived)
            · exact hjunk char hjunked
      · obtain ⟨more, rfl⟩ := hlong
        obtain ⟨count, pending, hread⟩ :=
          ih (fresh_readLine hfresh line) hrest ((List.prefix_append_right_inj _).mp hbegin)
        refine ⟨count + 1, pending, ?_⟩
        rw [List.append_assoc, read_append, read_line hfresh hline, hread, List.take_succ_cons,
          List.foldl_cons]

end Reader

/-! ### Messages -/

/-- The lines of a message, without the blank one. -/
abbrev Block := List Text

def Block.WellFormed (block : Block) : Prop := ∀ line ∈ block, line ≠ [] ∧ Clean line

def linesOf (blocks : List Block) : List Text := blocks.flatMap fun block => block ++ [[]]

def writeBlocks (blocks : List Block) : Text := writeLines (linesOf blocks)

namespace Reader

variable {reader : Reader} {blocks : List Block} {lines : List Text}

def readBlock (reader : Reader) (block : Block) : Reader := (block.foldl readLine reader).dispatch

theorem foldl_linesOf (reader : Reader) (blocks : List Block) :
    (linesOf blocks).foldl readLine reader = blocks.foldl readBlock reader := by
  rw [linesOf, List.foldl_flatMap]
  congr 1
  funext reader block
  rw [List.foldl_append]
  rfl

theorem clean_of_mem_linesOf (hblocks : ∀ block ∈ blocks, block.WellFormed) :
    ∀ line ∈ linesOf blocks, Clean line := by
  intro line hline
  obtain ⟨block, hblock, hmem⟩ := List.mem_flatMap.mp hline
  rcases List.mem_append.mp hmem with hinside | hblank
  · exact (hblocks block hblock line hinside).2
  · rw [List.mem_singleton.mp hblank]
    exact fun char hchar => absurd hchar List.not_mem_nil

theorem client_field (reader : Reader) (name value : Text) :
    (reader.field name value).client = reader.client := by
  unfold field
  split_ifs <;> rfl

/-- Without a blank line nothing happens to the client. -/
theorem client_foldl (reader : Reader) (hlines : ∀ line ∈ lines, line ≠ []) :
    (lines.foldl readLine reader).client = reader.client := by
  induction lines generalizing reader with
  | nil => rfl
  | cons line rest ih =>
      rw [List.foldl_cons, ih _ fun other hother => hlines other (List.mem_cons_of_mem line hother),
        readLine, if_neg (hlines line List.mem_cons_self), client_field]

/-- What a client has of the first lines are whole messages. -/
theorem client_take (reader : Reader) (hblocks : ∀ block ∈ blocks, block.WellFormed) (count : Nat) :
    ∃ whole, (((linesOf blocks).take count).foldl readLine reader).client =
      ((blocks.take whole).foldl readBlock reader).client := by
  induction blocks generalizing reader count with
  | nil => exact ⟨0, by simp [linesOf]⟩
  | cons block rest ih =>
      have hblock := hblocks block List.mem_cons_self
      have hrest : ∀ other ∈ rest, other.WellFormed := fun other hother =>
        hblocks other (List.mem_cons_of_mem block hother)
      by_cases hinside : count ≤ block.length
      · refine ⟨0, ?_⟩
        have htake : (linesOf (block :: rest)).take count = block.take count := by
          rw [linesOf, List.flatMap_cons, List.append_assoc, List.take_append_of_le_length hinside]
        rw [htake, client_foldl reader fun line hline =>
          (hblock line (List.mem_of_mem_take hline)).1]
        rfl
      · obtain ⟨whole, hwhole⟩ := ih (reader.readBlock block) hrest (count - (block.length + 1))
        refine ⟨whole + 1, ?_⟩
        have htake : (linesOf (block :: rest)).take count =
            (block ++ [[]]) ++ (linesOf rest).take (count - (block.length + 1)) := by
          rw [linesOf, List.flatMap_cons, List.take_append, List.take_of_length_le]
          · rw [List.length_append, List.length_singleton]
            rfl
          · rw [List.length_append, List.length_singleton]
            omega
        rw [htake, List.foldl_append, List.foldl_append, List.take_succ_cons, List.foldl_cons]
        exact hwhole

theorem read_writeBlocks (hfresh : reader.Fresh) (hblocks : ∀ block ∈ blocks, block.WellFormed) :
    reader.read (writeBlocks blocks) = blocks.foldl readBlock reader := by
  rw [writeBlocks, read_writeLines hfresh (clean_of_mem_linesOf hblocks), foldl_linesOf]

/-- A stream that is cut off anywhere gives the client a prefix of the messages. -/
theorem client_cut {received junk : Text} (hfresh : reader.Fresh)
    (hblocks : ∀ block ∈ blocks, block.WellFormed) (hbegin : received <+: writeBlocks blocks)
    (hjunk : Clean junk) :
    ∃ whole, (reader.read (received ++ junk)).client =
      ((blocks.take whole).foldl readBlock reader).client := by
  obtain ⟨count, pending, hread⟩ := read_cut hfresh (clean_of_mem_linesOf hblocks) hbegin hjunk
  rw [hread]
  exact client_take reader hblocks count

theorem readLine_field {name value : Text} (hcolon : ':' ∉ name) :
    reader.readLine (name ++ ':' :: ' ' :: value) = reader.field name value := by
  have hplain : ∀ char ∈ name, decide (char ≠ ':') = true := by
    intro char hchar
    exact decide_eq_true fun heq => hcolon (heq ▸ hchar)
  have hnonempty : name ++ ':' :: ' ' :: value ≠ [] := by simp
  rw [readLine, if_neg hnonempty, List.takeWhile_append_of_pos hplain,
    List.dropWhile_append_of_pos hplain]
  simp [fieldValue]

end Reader

end EventStream
