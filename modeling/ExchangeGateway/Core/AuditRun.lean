import ExchangeGateway.Core.Audit
import ExchangeGateway.Core.Idempotence

/-! The consistency audit of a running gateway. -/
namespace ExchangeGateway
open Decimal

namespace OrderRecord

variable {record : OrderRecord}

end OrderRecord

/-! ### A whole pass -/

namespace Oms

variable {oms : Oms}

theorem auditItem_alerts (report : AuditReport) (item : AuditItem)
    (answer : Result (Option OrderSnapshot)) :
    (oms.auditItem report item answer).alerts =
      report.alerts ++ (oms.auditItem {} item answer).alerts := by
  unfold auditItem
  split_ifs
  · rfl
  · cases oms.lookup item.id with
    | none => simp
    | some record =>
      match answer with
      | .error _ => rfl
      | .ok none => rfl
      | .ok (some _) => simp

theorem audit_alerts (visit : AuditItem → Oms × Result (Option OrderSnapshot)) :
    (oms.audit visit).alerts = oms.auditBegin.2.1.alerts ++
      oms.auditWork.flatMap fun item =>
        ((visit item).1.auditItem {} item (visit item).2).alerts := by
  have hrun (items : List AuditItem) (report : AuditReport) :
      (items.foldl (fun report item => (visit item).1.auditItem report item (visit item).2)
        report).alerts = report.alerts ++
          items.flatMap fun item => ((visit item).1.auditItem {} item (visit item).2).alerts := by
    induction items generalizing report with
    | nil => simp
    | cons item items ih =>
      rw [List.foldl_cons, ih, auditItem_alerts, List.flatMap_cons, List.append_assoc]
  exact hrun _ _

end Oms

namespace System

variable {s : System}

end System

end ExchangeGateway
