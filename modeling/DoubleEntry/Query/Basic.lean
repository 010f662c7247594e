import DoubleEntry.Pattern.Engine
import DoubleEntry.Transaction

/-! Queries select postings of a transaction: by patterns in account names and in descriptions, and
by their boolean combinations. -/

namespace DoubleEntry

variable [PatternEngine]

/-- Which postings to select. -/
inductive Query where
  /-- Those whose account name has a match. -/
  | account (matcher : Matcher)
  /-- All if the description has a match, else none. -/
  | payee (matcher : Matcher)
  | both (children : List Query)
  | either (children : List Query)
  | not (child : Query)
  | all

namespace Query

/-- The numbers of a transaction's postings. -/
def indices (transaction : Transaction) : List Nat := List.range transaction.postings.length

/-- The members of the first list that are in the second. -/
def restrict (members others : List Nat) : List Nat := members.filter others.contains

mutual

/-- The numbers of the postings that a query selects, in increasing order. -/
def execute (transaction : Transaction) : Query → List Nat
  | account matcher =>
    (indices transaction).filter fun index =>
      transaction.postings[index]?.any fun posting => matcher.isMatch posting.accountName
  | payee matcher =>
    if matcher.isMatch transaction.description then indices transaction else []
  | both children => executeAll transaction children
  | either children => executeAny transaction children
  | not child =>
    let excluded := execute transaction child
    (indices transaction).filter fun index => !excluded.contains index
  | all => indices transaction

/-- The numbers of the postings that every one of some queries selects. -/
def executeAll (transaction : Transaction) : List Query → List Nat
  | [] => indices transaction
  | child :: children => restrict (execute transaction child) (executeAll transaction children)

/-- The numbers of the postings that at least one of some queries selects. -/
def executeAny (transaction : Transaction) : List Query → List Nat
  | [] => []
  | child :: children =>
    let first := execute transaction child
    let others := executeAny transaction children
    (indices transaction).filter fun index => first.contains index || others.contains index

end

/-- Whether a query selects at least one posting. -/
def selects (query : Query) (transaction : Transaction) : Bool :=
  !(query.execute transaction).isEmpty

def postingsAt (transaction : Transaction) (selected : List Nat) : List Posting :=
  selected.filterMap fun index => transaction.postings[index]?

def postings (query : Query) (transaction : Transaction) : List Posting :=
  postingsAt transaction (query.execute transaction)

mutual

/-- A query as text. Of two children, the text is read back as the same query. -/
def text : Query → String
  | account matcher => matcher.source
  | payee matcher => "payee " ++ matcher.source
  | both children => "(" ++ joined "and" children ++ ")"
  | either children => "(" ++ joined "or" children ++ ")"
  | not child => "not " ++ text child
  | all => "*"

/-- The texts of some queries with a word between them. -/
def joined (word : String) : List Query → String
  | [] => ""
  | [child] => text child
  | child :: children => text child ++ " " ++ word ++ " " ++ joined word children

end

mutual

def same : Query → Query → Bool
  | account a, account b | payee a, payee b => a.source == b.source
  | both a, both b | either a, either b => sameEach a b
  | not a, not b => same a b
  | all, all => true
  | _, _ => false

/-- Whether two lists hold the same queries in the same order. -/
def sameEach : List Query → List Query → Bool
  | [], [] => true
  | a :: as, b :: bs => same a b && sameEach as bs
  | _, _ => false

end

end Query

end DoubleEntry
