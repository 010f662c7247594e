import DoubleEntry.Balance
import DoubleEntry.Calendar
import DoubleEntry.Text.Layout

/-! Transactions and their postings, and how a journal file writes them. -/

namespace DoubleEntry

/-- A movement of commodities in one account; `amounts` is `none` where they are left to be
inferred. -/
structure Posting where
  account : List String
  amounts : Option Balance
  deriving DecidableEq

namespace Posting

def accountName (posting : Posting) : String := ":".intercalate posting.account

def isElided (posting : Posting) : Bool := posting.amounts.isNone

def line (posting : Posting) : String :=
  let amounts := " ".intercalate ((posting.amounts.map (·.texts)).getD [])
  "\t" ++ Text.padRight 25 posting.accountName ++ "\t" ++ Text.padLeft 20 amounts

end Posting

/-- What happened on a day: postings that should cancel out. -/
structure Transaction where
  date : Date
  description : String
  postings : List Posting
  deriving DecidableEq

namespace Transaction

def dateText (transaction : Transaction) : String := transaction.date.text "/"

def header (transaction : Transaction) : String :=
  transaction.dateText ++ " " ++ transaction.description

def lines (transaction : Transaction) : List String :=
  transaction.header :: transaction.postings.map Posting.line

def text (transaction : Transaction) : String := Text.joinLines transaction.lines

end Transaction

end DoubleEntry
