import ByteMachine.Proofs.Console.Ports

/-!
The input of the terminal is one stream.  However its readers are mixed, each of them takes bytes
off the front of the same list and leaves the rest to the others; only what is given back lengthens
it.
-/

namespace ByteMachine.Console

theorem readLine_leaves (console : Console) :
    console.readLine.1 = console.remaining.takeWhile (· ≠ lineFeed) ++
        (console.remaining.dropWhile (· ≠ lineFeed)).take 1 ∧
      console.Leaves console.readLine.2 (console.remaining.dropWhile (· ≠ lineFeed)).tail := by
  induction hn : console.remaining.length using Nat.strong_induction_on generalizing console with
  | h n ih =>
    rw [readLine]
    rcases console.getByte_cases with ⟨hr, hg⟩ | ⟨byte, next, hg, hr, hl⟩
    · split
      · next hg' =>
        cases hg.symm.trans hg'
        rw [hr]
        exact ⟨rfl, by simpa [hr] using Leaves.refl console⟩
      · next hg' => simp [hg] at hg'
    · split
      · next hg' => simp [hg] at hg'
      · next byte' next' hg' =>
        cases hg.symm.trans hg'
        rw [hr]
        by_cases hb : byte = lineFeed
        · subst hb
          simpa using hl
        · obtain ⟨hline, hrest⟩ := ih next.remaining.length (by simp [← hn, hr]) next rfl
          rw [if_neg hb, List.takeWhile_cons_of_pos (by simpa),
            List.dropWhile_cons_of_pos (by simpa)]
          exact ⟨congrArg (byte :: ·) hline, hl.trans hrest⟩

inductive Request where
  | byte
  | line
  | number
  | port (port : ConsolePort)
  | giveBack (byte : Option UInt8)
  deriving DecidableEq, Repr

inductive Answer where
  | byte (byte : Option UInt8)
  | line (bytes : List UInt8)
  | number (number : Option Int)
  | data (data : Int)
  | done
  deriving DecidableEq, Repr

def serve (console : Console) : Request → Answer × Console
  | .byte => (.byte console.getByte.1, console.getByte.2)
  | .line => (.line console.readLine.1, console.readLine.2)
  | .number => (.number console.readNumber.1, console.readNumber.2)
  | .port port => (.data (port.read console).1, (port.read console).2)
  | .giveBack byte => (.done, console.ungetByte byte)

/-- How a request is answered from the bytes that are left to read: which of them it takes, and
which it leaves. -/
inductive Serves : List UInt8 → Request → Answer → List UInt8 → List UInt8 → Prop where
  | byte (first : UInt8) (rest : List UInt8) :
      Serves (first :: rest) .byte (.byte (some first)) [first] rest
  | noByte : Serves [] .byte (.byte none) [] []
  | character (first : UInt8) (rest : List UInt8) :
      Serves (first :: rest) (.port .character) (.data first.toNat) [first] rest
  | noCharacter : Serves [] (.port .character) (.data (-1)) [] []
  | line {body : List UInt8} (h : lineFeed ∉ body) (rest : List UInt8) :
      Serves (body ++ lineFeed :: rest) .line (.line (body ++ [lineFeed])) (body ++ [lineFeed]) rest
  | lastLine {body : List UInt8} (h : lineFeed ∉ body) : Serves body .line (.line body) body []
  | number {taken rest : List UInt8} {n : Option Int} (h : scanNumber (taken ++ rest) = (n, rest)) :
      Serves (taken ++ rest) .number (.number n) taken rest
  | numeric {taken rest : List UInt8} {n : Option Int}
      (h : scanNumber (taken ++ rest) = (n, rest)) :
      Serves (taken ++ rest) (.port .numeric) (.data (n.getD 0)) taken rest
  | giveBack (byte : Option UInt8) (input : List UInt8) :
      Serves input (.giveBack byte) .done [] (byte.toList ++ input)

theorem scanNumber_takes (input : List UInt8) :
    ∃ taken, input = taken ++ (scanNumber input).2 := by
  have hblank := List.takeWhile_append_dropWhile (p := isBlank) (l := input)
  unfold scanNumber
  generalize input.takeWhile isBlank = blanks at hblank
  generalize input.dropWhile isBlank = text at hblank ⊢
  subst hblank
  by_cases hd : (unsigned text).takeWhile isDigit = []
  · exact ⟨blanks, by simp [hd]⟩
  · refine ⟨blanks ++ (text.head?.filter isSign).toList ++ (unsigned text).takeWhile isDigit, ?_⟩
    simp only [if_neg hd, List.append_assoc, List.takeWhile_append_dropWhile, sign_unsigned]

theorem lineFeed_notMem_takeWhile (input : List UInt8) :
    lineFeed ∉ input.takeWhile (· ≠ lineFeed) := by
  intro h
  simpa using List.mem_takeWhile_imp h

theorem serves_line (input : List UInt8) :
    Serves input .line
      (.line (input.takeWhile (· ≠ lineFeed) ++ (input.dropWhile (· ≠ lineFeed)).take 1))
      (input.takeWhile (· ≠ lineFeed) ++ (input.dropWhile (· ≠ lineFeed)).take 1)
      (input.dropWhile (· ≠ lineFeed)).tail := by
  have hbody := lineFeed_notMem_takeWhile input
  have hall := List.takeWhile_append_dropWhile (p := (· ≠ lineFeed)) (l := input)
  have hhead := List.head?_dropWhile_not (· ≠ lineFeed) input
  generalize input.takeWhile (· ≠ lineFeed) = body at hbody hall ⊢
  generalize input.dropWhile (· ≠ lineFeed) = left at hhead hall ⊢
  subst hall
  cases left with
  | nil => simpa using Serves.lastLine hbody
  | cons first rest =>
    obtain rfl : first = lineFeed := by simpa using hhead
    exact .line hbody rest

/-- Every request is answered from the front of what is left to read. -/
theorem serve_serves (console : Console) (request : Request) :
    ∃ taken, Serves console.remaining request (console.serve request).1 taken
      (console.serve request).2.remaining := by
  cases request with
  | byte =>
    simp only [serve, getByte_fst, console.getByte_leaves.remaining]
    cases console.remaining with
    | nil => exact ⟨[], .noByte⟩
    | cons first rest => exact ⟨[first], .byte first rest⟩
  | line =>
    obtain ⟨hline, hl⟩ := console.readLine_leaves
    simp only [serve, hline, hl.remaining]
    exact ⟨_, serves_line console.remaining⟩
  | number =>
    obtain ⟨hvalue, hl⟩ := console.readNumber_leaves
    obtain ⟨taken, ht⟩ := scanNumber_takes console.remaining
    simp only [serve, hvalue, hl.remaining]
    generalize hs : scanNumber console.remaining = scanned at ht ⊢
    rw [ht] at hs ⊢
    exact ⟨taken, .number hs⟩
  | port port =>
    cases port with
    | character =>
      obtain ⟨hvalue, hx⟩ := ConsolePort.read_character console
      simp only [serve, hvalue, hx.remaining]
      cases console.remaining with
      | nil => exact ⟨[], .noCharacter⟩
      | cons first rest => exact ⟨[first], .character first rest⟩
    | numeric =>
      obtain ⟨hvalue, hx⟩ := ConsolePort.read_numeric console
      obtain ⟨taken, ht⟩ := scanNumber_takes console.remaining
      simp only [serve, hvalue, hx.remaining]
      generalize hs : scanNumber console.remaining = scanned at ht ⊢
      rw [ht] at hs ⊢
      exact ⟨taken, .numeric hs⟩
  | giveBack byte =>
    rw [serve, (console.ungetByte_leaves byte).remaining]
    exact ⟨[], .giveBack byte console.remaining⟩

/-- Only what is given back comes in front of the bytes that are left to read. -/
def Request.returned : Request → List UInt8
  | .giveBack given => given.toList
  | _ => []

theorem Serves.stream {input taken rest : List UInt8} {request : Request} {answer : Answer}
    (h : Serves input request answer taken rest) :
    request.returned ++ input = taken ++ rest := by
  cases h with
  | line h rest => simp [Request.returned]
  | lastLine h => simp [Request.returned]
  | _ => rfl

structure Exchange where
  request : Request
  answer : Answer
  taken : List UInt8
  deriving DecidableEq, Repr

/-- Requests one after the other, in any order, each answered from what the one before it has
left. -/
inductive Transcript : Console → List Exchange → Console → Prop where
  | nothing (console : Console) : Transcript console [] console
  | exchange {console next last : Console} {request : Request} {answer : Answer}
      {taken : List UInt8} {rest : List Exchange} (h : console.serve request = (answer, next))
      (hs : Serves console.remaining request answer taken next.remaining)
      (hr : Transcript next rest last) :
      Transcript console (⟨request, answer, taken⟩ :: rest) last

theorem exists_transcript (console : Console) (requests : List Request) :
    ∃ exchanges last, Transcript console exchanges last ∧
      exchanges.map Exchange.request = requests := by
  induction requests generalizing console with
  | nil => exact ⟨[], console, .nothing console, rfl⟩
  | cons request requests ih =>
    obtain ⟨taken, hs⟩ := console.serve_serves request
    obtain ⟨exchanges, last, hr, hm⟩ := ih (console.serve request).2
    exact ⟨⟨request, _, taken⟩ :: exchanges, last, .exchange rfl hs hr, by simp [hm]⟩

variable {console last : Console} {exchanges : List Exchange}

theorem Transcript.whole (h : Transcript console exchanges last)
    (hb : ∀ exchange ∈ exchanges, exchange.request.returned = []) :
    exchanges.flatMap Exchange.taken ++ last.remaining = console.remaining := by
  induction h with
  | nothing console => rfl
  | @exchange console next last request answer taken rest h hs hr ih =>
    have hone := hs.stream
    rw [hb _ List.mem_cons_self, List.nil_append] at hone
    have hrest := ih fun exchange he => hb exchange (List.mem_cons_of_mem _ he)
    rw [List.flatMap_cons, List.append_assoc, hrest, hone]

/-- The input that is left to a terminal is one stream for all who read from it: bytes, lines,
numbers and ports, in any order and as often as they like.  No byte is lost, repeated or moved, and
a byte that has been read can be given back, at the end of input too. -/
theorem input_is_one_stream (console : Console) (requests : List Request) :
    ∃ exchanges last, Transcript console exchanges last ∧
      exchanges.map Exchange.request = requests ∧
      ((∀ byte, .giveBack byte ∉ requests) →
        exchanges.flatMap Exchange.taken ++ last.remaining = console.remaining) ∧
      (last.getByte.2.ungetByte last.getByte.1).remaining = last.remaining := by
  obtain ⟨exchanges, last, h, hm⟩ := console.exists_transcript requests
  refine ⟨exchanges, last, h, hm, ?_, ?_⟩
  · intro hb
    apply h.whole
    intro exchange he
    have hr : exchange.request ∈ requests := hm ▸ List.mem_map_of_mem he
    cases hq : exchange.request with
    | giveBack byte => exact absurd (hq ▸ hr) (hb byte)
    | _ => rfl
  · rw [(last.getByte.2.ungetByte_leaves _).remaining, last.getByte_leaves.remaining,
      last.getByte_fst]
    cases last.remaining <;> rfl

end ByteMachine.Console
