import HeaderList.EncodedWord.Whole
import HeaderList.Message.Lists
import HeaderList.Message.Raw
import HeaderList.Proofs.Cursor
import HeaderList.Proofs.EncodedWord.Form
import HeaderList.Proofs.Items
import HeaderList.Proofs.Scanner.Step
import HeaderList.Proofs.Scanner.Meaning
import HeaderList.Proofs.Boundary
import HeaderList.Proofs.Charset.Utf8
import HeaderList.Proofs.EncodedWord.Payload
import HeaderList.Proofs.Charset.Fallback
import HeaderList.Proofs.Transport
import HeaderList.Proofs.Charset.Replacing
import HeaderList.Proofs.Defaults
import HeaderList.Proofs.Scanner.Moves
import HeaderList.Proofs.Succession
import HeaderList.Proofs.Scanner.Agreement
import HeaderList.Proofs.Message.Written
import HeaderList.Proofs.Message.InPlace
import HeaderList.Proofs.Message.Merged
import HeaderList.Proofs.EncodedWord.Whole
import HeaderList.Proofs.Layout
import HeaderList.Proofs.LastResort
import HeaderList.Proofs.EmptyEntries
import HeaderList.Proofs.EncodedWord.Grammar
import HeaderList.Proofs.PlainText
import HeaderList.Proofs.NormalForm
import HeaderList.Proofs.Scanner.Continuation
import HeaderList.Proofs.Folding
import HeaderList.Proofs.Separation
import HeaderList.Proofs.Refusals
import HeaderList.Proofs.EncodedWord.AnyPayload
import HeaderList.Proofs.EncodedWord.WholeFaults
import HeaderList.Proofs.Scanner.Fragments
import HeaderList.Proofs.Failures
import HeaderList.Proofs.LoopHeads
import HeaderList.Package
