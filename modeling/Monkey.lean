import Monkey.Main
import Monkey.Proofs.Eval.Exiting
import Monkey.Proofs.Eval.Parts
import Monkey.Proofs.Eval.Raising
import Monkey.Proofs.Eval.Scope
import Monkey.Proofs.Eval.Unwinding
import Monkey.Proofs.Grammar.Completeness
import Monkey.Proofs.Grammar.Soundness
import Monkey.Value.Inspect
import Monkey.Proofs.Eval.Orderly
import Monkey.Proofs.Eval.Limited
import Monkey.Proofs.Display.Legible
import Monkey.Proofs.Display.RoundTrip
import Monkey.Proofs.Token.Lossless
import Monkey.Proofs.Reader.Resumption
import Monkey.Proofs.Eval.Again
import Monkey.Proofs.Eval.AsBody
import Monkey.Proofs.Eval.ErrorFree
import Monkey.Proofs.Store.History
import Monkey.Proofs.Eval.Arithmetic
import Monkey.Proofs.Token.Written
import Monkey.Proofs.Reader.GivesUp
import Monkey.Proofs.Reader.Dropped
import Monkey.Proofs.Reader.Advance
import Monkey.Proofs.Reader.Blame
import Monkey.Proofs.Eval.Identity
import Monkey.Proofs.Eval.HashLiteral
import Monkey.Proofs.Token.Longest
import Monkey.Proofs.Token.Below
import Monkey.Proofs.Token.Decoding
import Monkey.Proofs.Eval.Unrolling
import Monkey.Proofs.Eval.Equality
import Monkey.Proofs.Eval.Digests
import Monkey.Proofs.Grammar.Commas
import Monkey.Proofs.Reader.Supplied
import Monkey.Proofs.Session.Agreement
