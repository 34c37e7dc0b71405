import TextCursor.Session
import TextCursor.SetShelf
import TextCursor.Proofs.Cursor.Effect
import TextCursor.Proofs.Cursor.Reachability
import TextCursor.Proofs.AsciiKey
import TextCursor.Proofs.Observation
import TextCursor.Proofs.Session
import TextCursor.Proofs.Cursor.Tokens
import TextCursor.Proofs.Cursor.Chain
import TextCursor.Proofs.Cursor.Contract
import TextCursor.Proofs.Numeral.Decimal
import TextCursor.Proofs.Numeral.Hexadecimal
import TextCursor.Proofs.Cursor.SignedList
import TextCursor.Proofs.Cursor.Opening
import TextCursor.Proofs.Cursor.Relocation
import TextCursor.Proofs.Cursor.Splitting
import TextCursor.Proofs.Span
import TextCursor.Proofs.Report
import TextCursor.Proofs.Cursor.Scanning
import TextCursor.Proofs.Cursor.Searching
import TextCursor.Proofs.SetShelf
import TextCursor.Proofs.Cursor.Membership
import TextCursor.Proofs.Cursor.Asking
import TextCursor.Proofs.Cursor.Counting
import TextCursor.Proofs.Cursor.Spelling
import TextCursor.Proofs.Cursor.Portions
import TextCursor.Proofs.Cursor.Ranges
import TextCursor.Proofs.Cursor.Retry
