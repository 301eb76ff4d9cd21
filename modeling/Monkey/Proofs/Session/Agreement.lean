import Monkey.Proofs.Session.Blank
import Monkey.Proofs.Token.Decoding
import Monkey.Proofs.Token.Reads
import Monkey.Session.Batch
import Monkey.Session.Dialogue

/-!
# Lines and files that hold them

A dialogue and a batch both take source texts one after the other in one session. So lines that are
entered and files that hold one of these lines each come to the same, up to what is printed besides
the output of the programs. They differ on blank lines, which a dialogue passes over. A batch takes
them like others; that changes nothing in the session, but it may be reported.

## Main definitions

* `Session.Turn`, `Session.takeAll` — what comes of source texts that are taken one after the other.
* `Batch.printed`, `Dialogue.printed` — what is printed for them.
* `Text.IsOneLine`, `Batch.HoldsLine` — a line, and a file that holds it.
* `Dialogue.kept` — without the turns of blank lines.
-/

namespace Monkey

open Text

/-! ## Source texts one after the other -/

namespace Session

/-- What was read of a source text, and what came of it. The program was run if there is an answer,
and else diagnostics were reported. -/
structure Turn where
  program : Program
  reply : Reply

end Session

/-! ## Files -/

namespace Batch

open Session

/-- What is printed for files when they are run. -/
def printed (files : List (String × Option (List UInt8))) (turns : List Turn) : List String :=
  (files.zip turns).flatMap fun p => announcement p.1.1 :: p.2.reply.lines Value.isError

variable {n : Nat} {s : Session}

end Batch

/-! ## Lines -/

namespace Dialogue

open Session

/-- What is printed for lines when they are run. -/
def printed (turns : List Turn) : List String := turns.flatMap fun t => t.reply.lines isTold

section Kept

variable {α : Type} {line : String} {lines : List String} {x : α} {xs : List α}

end Kept

variable {n : Nat} {s : Session} {line entered : String}

end Dialogue

/-! ## Passing over blank lines -/

namespace Session

open Dialogue

variable {n : Nat} {s s' : Session} {lines : List String} {turns : List Turn}

end Session

/-! ## Files that hold one line -/

/-- A text that is one line: there is no newline in it and no carriage return at its end. -/
structure Text.IsOneLine (line : String) : Prop where
  newline : '\n' ∉ line.toList
  carriageReturn : line.toList.getLast? ≠ some '\r'

instance (line : String) : Decidable (IsOneLine line) :=
  decidable_of_iff ('\n' ∉ line.toList ∧ line.toList.getLast? ≠ some '\r')
    ⟨fun h => ⟨h.1, h.2⟩, fun h => ⟨h.newline, h.carriageReturn⟩⟩

/-- The contents of a file are one line, with or without a line end behind it. -/
def Batch.HoldsLine (contents : Option (List UInt8)) (line : String) : Prop :=
  ∃ ending ∈ ["", "\n", "\r\n"], contents = some (line ++ ending).toUTF8.data.toList

instance (contents : Option (List UInt8)) (line : String) :
    Decidable (Batch.HoldsLine contents line) :=
  inferInstanceAs (Decidable (∃ ending ∈ _, _))

/-- A text that ends with its only newline is one line. -/
theorem Text.Lines.ofString_of_concat_newline {text : String} {cs : List Char}
    (htext : text.toList = cs ++ ['\n']) (hcs : '\n' ∉ cs) :
    Lines.ofString text = [String.ofList (Lines.dropReturn '\r' cs.reverse).reverse] := by
  rw [Lines.ofString, htext, Lines.cut, Scanner.cutFrom_append_newline hcs, List.append_nil]
  rfl

/-- A line end behind a line is no part of it. -/
theorem Text.IsOneLine.ofString_append {line ending : String} (h : IsOneLine line)
    (hending : ending ∈ ["\n", "\r\n"]) : Lines.ofString (line ++ ending) = [line] := by
  simp only [List.mem_cons, List.not_mem_nil, or_false] at hending
  rcases hending with rfl | rfl
  · have hdrop : Lines.dropReturn '\r' line.toList.reverse = line.toList.reverse := by
      cases hreverse : line.toList.reverse with
      | nil => rfl
      | cons c cs =>
        have hlast := h.carriageReturn
        rw [List.getLast?_eq_head?_reverse, hreverse] at hlast
        exact if_neg fun hc => hlast (congrArg some hc)
    have htext : (line ++ "\n").toList = line.toList ++ ['\n'] := String.toList_append
    rw [Lines.ofString_of_concat_newline htext h.newline, hdrop, List.reverse_reverse,
      String.ofList_toList]
  · have hnotMem : '\n' ∉ line.toList ++ ['\r'] := by simpa using h.newline
    have htext : (line ++ "\r\n").toList = line.toList ++ ['\r'] ++ ['\n'] :=
      String.toList_append.trans (List.append_cons ..)
    rw [Lines.ofString_of_concat_newline htext hnotMem]
    simp [Lines.dropReturn]

/-- The tokens of a file that holds a line are those of the line. -/
theorem Batch.HoldsLine.tokens {contents : Option (List UInt8)} {line : String}
    (h : HoldsLine contents line) (hline : IsOneLine line) :
    contents.bind Token.ofBytes? = some (Token.ofString line) := by
  obtain ⟨ending, hending, rfl⟩ := h
  have htokens : Token.ofString (line ++ ending) = Token.ofString line := by
    rcases List.mem_cons.mp hending with rfl | hending
    · rw [String.append_empty]
    · rw [Token.ofString, hline.ofString_append hending,
        Scanner.ofString_eq_ofLines hline.newline]
  rw [← htokens, Lines.toList_toUTF8, Option.bind_some, Token.ofBytes?, Lines.ofBytes?_encode]
  rfl

/-! ## Both runs -/

end Monkey
