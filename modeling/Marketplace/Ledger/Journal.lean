import Marketplace.Ledger.Readers
import Marketplace.Paging.Keyset
import Marketplace.Resources.Stock
import Marketplace.Text.IsoFormat
import Mathlib.Data.Prod.Lex

/-!
# The money journal

`ledger/journal.py`: the rows of the ledger newest first, filtered and served in pages
(`listEntries`), each with the balance of its wallet right after it. A page is asked for by a
cursor, the moment and the id of a row in one text (`encodeCursor`, `decodeCursor`).

The balances are computed for the rows of a page only (`runningBalances`): for each wallet on the
page an opening sum of what is before its oldest row there, and a window sum from that row to its
newest one.

Labels of the groups, evidence images and e-mail addresses are left out.
-/

namespace Marketplace

open Text

/-! ### The rows -/

/-- A row of `transactions`, as the journal reads it. -/
structure JournalEntry where
  id : ℕ
  walletId : ℕ
  createdAt : AwareDatetime
  type : TransactionType
  amount : ℤ
  description : Option String
  referenceId : Option String
  deriving DecidableEq

/-- What rows are ordered by: `(created_at, id)`. -/
abbrev JournalKey := ℤ ×ₗ ℤ

/-- The key of a moment and an id. -/
def journalKey (createdAt : AwareDatetime) (id : ℤ) : JournalKey := toLex (createdAt.1.instant, id)

def JournalEntry.key (t : JournalEntry) : JournalKey := journalKey t.createdAt t.id

/-- `_signed`: what a row does to the available balance. -/
def JournalEntry.signed (t : JournalEntry) : ℤ :=
  match t.type.direction with
  | .in_ => t.amount
  | .out => -t.amount
  | .neutral => 0

/-- A row of `wallets`. -/
structure JournalWallet where
  id : ℕ
  accountId : ℕ
  deriving DecidableEq

/-- A row of `accounts`. -/
structure JournalAccount where
  id : ℕ
  isSeeded : Bool
  isSeller : Bool
  deriving DecidableEq

/-- The tables the journal reads; `id` is the primary key of the ledger. -/
structure JournalDb where
  transactions : List JournalEntry
  wallets : List JournalWallet
  accounts : List JournalAccount
  seededOrders : List ℕ
  platformAccountId : ℕ
  idsUnique : (transactions.map JournalEntry.id).Nodup

namespace JournalDb

/-- `_wallet_id` -/
def walletId (d : JournalDb) (accountId : ℕ) : Option ℕ :=
  (d.wallets.find? fun w => w.accountId = accountId).map JournalWallet.id

/-- The account a row is joined with, through its wallet. -/
def accountOf (d : JournalDb) (t : JournalEntry) : Option JournalAccount := do
  let wallet ← d.wallets.find? fun w => w.id = t.walletId
  d.accounts.find? fun a => a.id = wallet.accountId

/-- The ids are told apart, so the keys are. -/
theorem keys_nodup (d : JournalDb) : (d.transactions.map JournalEntry.key).Nodup := by
  have h : (d.transactions.map JournalEntry.key).map (fun k => (ofLex k).2) =
      (d.transactions.map JournalEntry.id).map (Nat.cast : ℕ → ℤ) := by
    simp [JournalEntry.key, journalKey]
  refine List.Nodup.of_map (fun k => (ofLex k).2) ?_
  rw [h]
  exact d.idsUnique.map Nat.cast_injective

end JournalDb

/-! ### The filters -/

/-- Who caused a row. -/
inductive JournalActor
  | admin | system | user | demo
  deriving DecidableEq, Repr

/-- `_role_of` -/
inductive JournalRole
  | buyer | seller | platform
  deriving DecidableEq, Repr

/-- `EntryFilters` -/
structure EntryFilters where
  start : Option AwareDatetime
  stop : Option AwareDatetime
  direction : Option TransactionDirection
  types : List TransactionType
  role : Option JournalRole
  accountId : Option ℕ
  group : Option String
  amount : Option ℤ
  entryId : Option ℕ
  actor : Option JournalActor
  includeSeed : Bool

/-- `_actor`, and its twin in SQL. -/
def actorOf (type : TransactionType) (description referenceId : Option String) : JournalActor :=
  if type ∈ [.adjustmentDebit, .adjustmentCredit, .withdraw, .withdrawFee, .withdrawUnlock] then
    .admin
  else if type = .platformFee ∧ like "withdraw-%".toList (referenceId.getD "").toList then .admin
  else if type = .topup then
    if like "Nạp thử%".toList (description.getD "").toList then .demo else .admin
  else if type = .withdrawLock then .user
  else .system

/-- `_role_of` -/
def JournalDb.roleOf (d : JournalDb) (a : JournalAccount) : JournalRole :=
  if a.id = d.platformAccountId then .platform else if a.isSeller then .seller else .buyer

/-- The conditions that only look at the row and the account it is joined with. -/
def JournalDb.plainConditions (d : JournalDb) (f : EntryFilters) (t : JournalEntry)
    (a : JournalAccount) : Bool :=
  (f.start.all fun at_ => at_.1.instant ≤ t.createdAt.1.instant) &&
    (f.stop.all fun at_ => t.createdAt.1.instant < at_.1.instant) &&
    (f.direction.all fun dir => t.type.direction = dir) &&
    (f.types.isEmpty || t.type ∈ f.types) &&
    (f.accountId.all fun account => d.walletId account = some t.walletId) &&
    (f.amount.all fun x => t.amount = x) &&
    (f.entryId.all fun i => t.id = i) &&
    (f.actor.all fun who => actorOf t.type t.description t.referenceId = who) &&
    (f.role.all fun role => d.roleOf a = role)

/-- The seeded wallets: those of seeded accounts. -/
def JournalDb.walletSeeded (d : JournalDb) (t : JournalEntry) : Bool :=
  (d.accountOf t).any JournalAccount.isSeeded

section Journal

variable (digits : DigitClass) (d : JournalDb)

/-- The condition of the group, where the filters name one. -/
def groupMatches (f : EntryFilters) (t : JournalEntry) : Except ReadError Bool :=
  match f.group with
  | none => .ok true
  | some key => (groupCondition digits key).map fun rows => rows t.type t.referenceId

/-- `_not_seed`, where the filters do not include seeded money. -/
def unseeded (f : EntryFilters) (t : JournalEntry) : Except ReadError Bool :=
  if f.includeSeed then .ok true
  else notSeed digits (d.walletSeeded t) (fun o => o ∈ d.seededOrders) t.referenceId

/-- The `WHERE` of the query, on one row: the join and `_conditions`. -/
def matchesFilters (f : EntryFilters) (t : JournalEntry) : Except ReadError Bool := do
  let group ← groupMatches digits f t
  let real ← unseeded digits d f t
  pure ((d.accountOf t).any (fun a => d.plainConditions f t a) && group && real)

/-- The rows the query selects, before they are ordered and cut off. -/
def selectEntries (f : EntryFilters) : Except ReadError (List JournalEntry) :=
  d.transactions.filterM (matchesFilters digits d f)

/-! ### Cursors -/

/-- `encode_cursor` -/
def encodeCursor (createdAt : AwareDatetime) (entryId : ℕ) : String :=
  String.ofList (isoformat createdAt.1 ++ '_' :: (toString entryId).toList)

/-- What is before the last `sep` and what is after it; where there is none, the whole text is
after it. -/
def rpartition (sep : Char) (cs : List Char) : List Char × List Char :=
  ((cs.reverse.dropWhile (· ≠ sep)).tail.reverse, (cs.reverse.takeWhile (· ≠ sep)).reverse)

/-- `int(text)`, of a text without `_`. -/
def intOf (cs : List Char) : Option ℤ :=
  match stripChars isSpace cs with
  | '-' :: ds => (digits.int? ds).map fun n => -(n : ℤ)
  | '+' :: ds => (digits.int? ds).map fun n => (n : ℤ)
  | ds => (digits.int? ds).map fun n => (n : ℤ)

/-- `decode_cursor` -/
def decodeCursor (cursor : String) : Except ReadError (AwareDatetime × ℤ) :=
  let (at_, ident) := rpartition '_' cursor.toList
  match fromisoformat at_, intOf digits ident with
  | some parsed, some entryId => .ok (parsed, entryId)
  | _, _ => .error .journalError

/-! ### Balances -/

/-- The wallets of a page. -/
def pageWallets (rows : List JournalEntry) : List ℕ := (rows.map JournalEntry.walletId).dedup

/-- The oldest and the newest key of a wallet on a page. -/
def walletSpan (rows : List JournalEntry) (wallet : ℕ) : Option (JournalKey × JournalKey) :=
  (rows.filter fun r => r.walletId = wallet).foldl (fun span r =>
    match span with
    | none => some (r.key, r.key)
    | some (lo, hi) => some (min lo r.key, max hi r.key)) none

/-- The sum of everything in a wallet strictly before a key. -/
def openingBalance (wallet : ℕ) (lo : JournalKey) : ℤ :=
  journalSum JournalEntry.signed
    ((d.transactions.filter fun t => t.walletId = wallet).filter fun t => t.key < lo)

/-- The window sum of a wallet's rows between two keys, up to a row. -/
def windowSum (wallet : ℕ) (lo hi : JournalKey) (t : JournalEntry) : ℤ :=
  journalSum JournalEntry.signed ((d.transactions.filter fun u => u.walletId = wallet).filter
    fun u => (lo ≤ u.key ∧ u.key ≤ hi) ∧ u.key ≤ t.key)

/-- The balances of one wallet's rows between its oldest and newest row of the page. -/
def walletBalances (rows : List JournalEntry) (wallet : ℕ) : List (ℕ × ℤ) :=
  match walletSpan rows wallet with
  | none => []
  | some (lo, hi) =>
    (d.transactions.filter fun t => t.walletId = wallet ∧ lo ≤ t.key ∧ t.key ≤ hi).map fun t =>
      (t.id, openingBalance d wallet lo + windowSum d wallet lo hi t)

/-- `_running_balances`: the balances of the rows that are on the page. -/
def runningBalances (rows : List JournalEntry) : List (ℕ × ℤ) :=
  ((pageWallets rows).flatMap (walletBalances d rows)).filter fun b =>
    b.1 ∈ rows.map JournalEntry.id

/-! ### Pages -/

/-- An item of a page. -/
structure JournalItem where
  entry : JournalEntry
  direction : TransactionDirection
  accountId : Option ℕ
  accountRole : Option JournalRole
  group : Option String
  balanceAfter : Option ℤ
  actor : JournalActor
  deriving DecidableEq

/-- The item of a row, with the balances of its page. -/
def journalItem (balances : List (ℕ × ℤ)) (t : JournalEntry) : JournalItem where
  entry := t
  direction := t.type.direction
  accountId := (d.accountOf t).map JournalAccount.id
  accountRole := (d.accountOf t).map d.roleOf
  group := groupKey digits t.referenceId
  balanceAfter := balances.lookup t.id
  actor := actorOf t.type t.description t.referenceId

/-- `MAX_PAGE` -/
def maxPage : ℕ := 200

/-- The condition a cursor adds. -/
def cursorCondition (cursor : Option String) : Except ReadError (JournalEntry → Bool) :=
  match cursor with
  | none => .ok fun _ => true
  | some text =>
    if text = "" then .ok fun _ => true
    else (decodeCursor digits text).map fun c t => t.key < journalKey c.1 c.2

/-- `list_entries`: the items of a page and the cursor of the next one. -/
def listEntries (f : EntryFilters) (limit : ℕ) (cursor : Option String) :
    Except ReadError (List JournalItem × Option String) :=
  let limit := max 1 (min limit maxPage)
  if f.accountId.any (fun a => d.walletId a = none) then .ok ([], none)
  else do
    let selected ← selectEntries digits d f
    let below ← cursorCondition digits cursor
    let rows := (Keyset.newestFirst JournalEntry.key (selected.filter below)).take (limit + 1)
    let hasMore := limit < rows.length
    let rows := rows.take limit
    let items := rows.map (journalItem digits d (runningBalances d rows))
    pure (items, if hasMore then rows.getLast?.map fun r => encodeCursor r.createdAt r.id else none)

end Journal

end Marketplace
