import Marketplace.Orders.Service

/-!
# Tasks

`tasks/service.py`: an order that is fulfilled by hand waits in `processing` until all its tasks
are completed or failed. `updateTask` changes one task and then lets the order follow.

A session keeps the rows it has loaded: a query run later finds the new rows but returns
the old objects. `updateTask` therefore takes the tasks its session holds, `memory`, which
is empty for a request of its own and not empty in a job that updates several
tasks in one session.
-/

namespace Marketplace

open Sql

/-- `_TERMINAL`. -/
def ServiceTaskStatus.IsTerminal (s : ServiceTaskStatus) : Prop := s = .completed ∨ s = .failed

instance (s : ServiceTaskStatus) : Decidable s.IsTerminal := by
  unfold ServiceTaskStatus.IsTerminal
  infer_instance

/-- The `updates` of `update_task`: the keys that are set. -/
structure TaskUpdate where
  status : Option ServiceTaskStatus
  resultData : Option (Option String)
  deriving DecidableEq, Repr

/-- The assignments to the object. -/
def TaskUpdate.apply (u : TaskUpdate) (t : ServiceTask) : ServiceTask :=
  { t with status := u.status.getD t.status, resultData := u.resultData.getD t.resultData }

/-- The columns the flush writes: the ones that differ from the object as it was loaded. -/
def TaskUpdate.write (u : TaskUpdate) (loaded row : ServiceTask) : ServiceTask :=
  { row with
    status := if (u.apply loaded).status = loaded.status then row.status else (u.apply loaded).status
    resultData :=
      if (u.apply loaded).resultData = loaded.resultData then row.resultData
      else (u.apply loaded).resultData }

/-- The tasks of an order. -/
def Db.orderTasks (d : Db) (orderId : ℕ) : List (ℕ × ServiceTask) :=
  d.tasks.rows.filter fun r => r.2.orderId = orderId

/-- What a query for the tasks of an order returns in a session that holds `memory`. -/
def Db.loadTasks (d : Db) (memory : List (ℕ × ServiceTask)) (orderId : ℕ) :
    List (ℕ × ServiceTask) :=
  (d.orderTasks orderId).map fun r => (r.1, (memory.lookup r.1).getD r.2)

/-- `sorted(tasks, key=lambda t: t.id)`. -/
def sortTasks (tasks : List (ℕ × ServiceTask)) : List ServiceTask :=
  (tasks.mergeSort fun a b => decide (a.1 ≤ b.1)).map Prod.snd

/-- How many of the tasks failed. -/
def failedTasks (tasks : List (ℕ × ServiceTask)) : ℕ :=
  (tasks.filter fun r => r.2.status = .failed).length

/-- `round(order.total_amount * len(failed) / len(tasks))`. -/
def partialRefund (totalAmount : ℤ) (failed tasks : ℕ) : ℤ :=
  Arith.roundDiv (totalAmount * failed) tasks

/-- The part of `_sync_order_status` for an order whose tasks are all terminal. -/
def closeTasks (cfg : Settings) (orderId : ℕ) (order : Order) (tasks : List (ℕ × ServiceTask)) :
    Tx Unit := do
  Tx.modify (Db.modifyOrder orderId fun o =>
    { o with deliveredData := some (formatTaskDelivery (sortTasks tasks)) })
  if failedTasks tasks = tasks.length then do
    refundEscrow cfg orderId order.buyerId (order.totalAmount - order.refundedAmount) ""
    setOrderStatus cfg orderId .cancelled
  else do
    let refund := partialRefund order.totalAmount (failedTasks tasks) tasks.length
    Tx.when (failedTasks tasks ≠ 0 ∧ refund ≠ 0)
      (refundEscrow cfg orderId order.buyerId refund "")
    setOrderStatus cfg orderId .delivered
    Tx.modify (Db.modifyOrder orderId fun o => { o with escrowExpiresAt := some (escrowUntil cfg) })

/-- `_sync_order_status`. -/
def syncOrderStatus (cfg : Settings) (memory : List (ℕ × ServiceTask)) (orderId : ℕ) :
    Tx Unit := do
  let order ← lockOrder orderId
  match order with
  | none => pure ()
  | some order =>
    if order.status ≠ .processing then pure ()
    else do
      let tasks ← Tx.read fun d => d.loadTasks memory orderId
      if ∃ t ∈ tasks, ¬t.2.status.IsTerminal then pure ()
      else closeTasks cfg orderId order tasks

/-- `update_task`. Commits. -/
def updateTask (cfg : Settings) (memory : List (ℕ × ServiceTask)) (taskId : ℕ) (u : TaskUpdate) :
    Tx Unit := do
  let row ← Tx.read fun d => d.tasks.get? taskId
  let task ← Tx.getOrElse ((memory.lookup taskId).or row) (.http 404 "Không tìm thấy tác vụ")
  Tx.modify (Db.modifyTask taskId (u.write task))
  syncOrderStatus cfg ((taskId, u.apply task) :: memory) task.orderId

end Marketplace
