import TrueAlpha.Forest.Model

/-!
# The registered forest

`factors.forest.registry`: the uniform tree `gppe`, the banking tree `gppe_banking_tce` and the tree
`gppe_operating_financial`, with the nodes that they reach.  A decomposition that two trees share is
written once.
-/

namespace TrueAlpha.Registry

def everyClass : List IssuerClass := IssuerClass.all

def nonBank : List IssuerClass := [.nonFinancial, .insurance]

def financialOnly : List IssuerClass := [.financial]

def capturedInput (key : String) (unit : UnitFamily) (applicability : List IssuerClass) : MetricNode :=
  { key, kind := .input, unit := some unit, applicability, provenance := ⟨.metricRegistry, key⟩
    aliases := [(.metric, key), (.inputKey, key), (.toptSnapshotField, key)], defaultWhenMissing := none }

def bankingLeaf (key : String) : MetricNode :=
  { capturedInput key .currency financialOnly with aliases := [(.metric, key), (.toptSnapshotField, key)] }

def derivedNode (key : String) (unit : UnitFamily) (applicability : List IssuerClass) (reference : String) : MetricNode :=
  { key, kind := .derived, unit := some unit, applicability, provenance := ⟨.derived, reference⟩
    aliases := [], defaultWhenMissing := none }

def laborEfficiency : MetricNode :=
  { key := "labor_efficiency", kind := .concept, unit := none, applicability := everyClass
    provenance := ⟨.concept, "init.md#7-module-2"⟩, aliases := [], defaultWhenMissing := none }

def grossProfit : MetricNode := capturedInput "gross_profit" .currency nonBank

def preProvisionProfit : MetricNode := capturedInput "pre_provision_profit" .currency financialOnly

def totalAssets : MetricNode := capturedInput "total_assets" .currency everyClass

def employeesTotal : MetricNode :=
  { capturedInput "employees_total" .count everyClass with
    aliases := [(.metric, "employees_total"), (.inputKey, "headcount"), (.toptSnapshotField, "headcount")] }

def riskFreeRate : MetricNode :=
  { key := "risk_free_rate", kind := .parameter, unit := some .ratio, applicability := everyClass
    provenance := ⟨.definitionParameter, "risk_free_rate"⟩
    aliases := [(.definitionParameter, "risk_free_rate")], defaultWhenMissing := none }

def operatingGrossProfit : MetricNode := derivedNode "operating_gross_profit" .currency everyClass "gppe"

def capitalCharge : MetricNode := derivedNode "capital_charge" .currency everyClass "gppe"

def capitalAdjustedGrossProfit : MetricNode :=
  { derivedNode "capital_adjusted_gross_profit" .currency everyClass "gppe" with
    aliases := [(.toptSnapshotField, "capital_adjusted_gross_profit")] }

def gppe : MetricNode := derivedNode "gppe_uniform_charge_v0" .perEmployee everyClass "gppe"

def stockholdersEquity : MetricNode := bankingLeaf "stockholders_equity"

def preferredStockValue : MetricNode := bankingLeaf "preferred_stock_value"

def goodwill : MetricNode := bankingLeaf "goodwill"

def intangibleAssets : MetricNode := bankingLeaf "intangible_assets_net_excluding_goodwill"

def tangibleDeductions : MetricNode := derivedNode "tangible_deductions" .currency financialOnly "gppe_banking_tce_v1"

def tangibleCommonEquity : MetricNode := derivedNode "tangible_common_equity" .currency financialOnly "gppe_banking_tce_v1"

def chargedTangibleCommonEquity : MetricNode :=
  derivedNode "charged_tangible_common_equity" .currency financialOnly "gppe_banking_tce_v1"

def capitalChargeTce : MetricNode := derivedNode "capital_charge_tce" .currency financialOnly "gppe_banking_tce_v1"

def capitalAdjustedTce : MetricNode := derivedNode "capital_adjusted_tce" .currency financialOnly "gppe_banking_tce_v1"

def gppeBankingTceV1 : MetricNode := derivedNode "gppe_banking_tce_v1" .perEmployee financialOnly "gppe_banking_tce_v1"

def financialAssets : MetricNode := capturedInput "financial_assets" .currency everyClass

def financialReturns : MetricNode := { capturedInput "financial_returns" .currency nonBank with defaultWhenMissing := some 0 }

def bankNetRevenue : MetricNode := capturedInput "bank_net_revenue" .currency financialOnly

def totalGrossReturn : MetricNode := derivedNode "total_gross_return" .currency nonBank "gppe_operating_financial_v1"

def capitalAdjustedOperatingFinancial : MetricNode :=
  derivedNode "capital_adjusted_operating_financial" .currency everyClass "gppe_operating_financial_v1"

def gppeOperatingFinancialV1 : MetricNode :=
  derivedNode "gppe_operating_financial_v1" .perEmployee everyClass "gppe_operating_financial_v1"

def forBanks (names : List String) : IssuerClass → Option (List String)
  | .financial => some names
  | _ => none

def byBank (others banks : List String) : IssuerClass → Option (List String)
  | .financial => some banks
  | _ => some others

def capitalChargeBinding : Decomposition where
  output := capitalCharge.key
  formulaId := .product
  operands := fun _ => some [totalAssets.key, riskFreeRate.key]
  bound := by decide
  arity := by decide

def capitalChargeTceBinding : Decomposition where
  output := capitalChargeTce.key
  formulaId := .product
  operands := forBanks [chargedTangibleCommonEquity.key, riskFreeRate.key]
  bound := by decide
  arity := by decide

def chargedTangibleCommonEquityBinding : Decomposition where
  output := chargedTangibleCommonEquity.key
  formulaId := .nonNegative
  operands := forBanks [tangibleCommonEquity.key]
  bound := by decide
  arity := by decide

def tangibleCommonEquityBinding : Decomposition where
  output := tangibleCommonEquity.key
  formulaId := .difference
  operands := forBanks [stockholdersEquity.key, tangibleDeductions.key]
  bound := by decide
  arity := by decide

def tangibleDeductionsBinding : Decomposition where
  output := tangibleDeductions.key
  formulaId := .sum
  operands := forBanks [preferredStockValue.key, goodwill.key, intangibleAssets.key]
  bound := by decide
  arity := by decide

def gppeBankingTceTree : MetricTree where
  key := "gppe_banking_tce"
  version := "v2"
  realizes := laborEfficiency.key
  root := gppeBankingTceV1.key
  applicability := financialOnly
  decompositions :=
    [{ output := gppeBankingTceV1.key, formulaId := .ratio
       operands := forBanks [capitalAdjustedTce.key, employeesTotal.key]
       bound := by decide, arity := by decide },
      { output := capitalAdjustedTce.key, formulaId := .difference
        operands := forBanks [preProvisionProfit.key, capitalChargeTce.key]
        bound := by decide, arity := by decide },
      capitalChargeTceBinding, chargedTangibleCommonEquityBinding, tangibleCommonEquityBinding,
      tangibleDeductionsBinding]
  decimalPrecision := 34

def gppeV0Tree : MetricTree where
  key := "gppe"
  version := "production-topt-v0.2.0"
  realizes := laborEfficiency.key
  root := gppe.key
  applicability := everyClass
  decompositions :=
    [{ output := gppe.key, formulaId := .ratio
       operands := fun _ => some [capitalAdjustedGrossProfit.key, employeesTotal.key]
       bound := by decide, arity := by decide },
      { output := capitalAdjustedGrossProfit.key, formulaId := .difference
        operands := fun _ => some [operatingGrossProfit.key, capitalCharge.key]
        bound := by decide, arity := by decide },
      capitalChargeBinding,
      { output := operatingGrossProfit.key, formulaId := .identity
        operands := byBank [grossProfit.key] [preProvisionProfit.key]
        bound := by decide, arity := by decide }]
  decimalPrecision := 34

def gppeOperatingFinancialTree : MetricTree where
  key := "gppe_operating_financial"
  version := "1.0.0"
  realizes := laborEfficiency.key
  root := gppeOperatingFinancialV1.key
  applicability := everyClass
  decompositions :=
    [{ output := gppeOperatingFinancialV1.key, formulaId := .ratio
       operands := fun _ => some [capitalAdjustedOperatingFinancial.key, employeesTotal.key]
       bound := by decide, arity := by decide },
      { output := capitalAdjustedOperatingFinancial.key, formulaId := .difference
        operands := byBank [totalGrossReturn.key, capitalCharge.key] [bankNetRevenue.key, capitalChargeTce.key]
        bound := by decide, arity := by decide },
      { output := totalGrossReturn.key, formulaId := .sum
        operands := fun cls => if cls = .financial then none else some [grossProfit.key, financialReturns.key]
        bound := by decide, arity := by decide },
      capitalChargeBinding, capitalChargeTceBinding, chargedTangibleCommonEquityBinding,
      tangibleCommonEquityBinding, tangibleDeductionsBinding]
  decimalPrecision := 34

def nodes : List MetricNode := [laborEfficiency, grossProfit, preProvisionProfit, totalAssets, employeesTotal, riskFreeRate,
    operatingGrossProfit, capitalCharge, capitalAdjustedGrossProfit, gppe, stockholdersEquity,
    preferredStockValue, goodwill, intangibleAssets, tangibleDeductions, tangibleCommonEquity,
    chargedTangibleCommonEquity, capitalChargeTce, capitalAdjustedTce, gppeBankingTceV1, financialAssets,
    financialReturns, bankNetRevenue, totalGrossReturn, capitalAdjustedOperatingFinancial,
    gppeOperatingFinancialV1]

def trees : List MetricTree := [gppeV0Tree, gppeBankingTceTree, gppeOperatingFinancialTree]

end TrueAlpha.Registry

namespace TrueAlpha

/-- `FOREST`, which passes its own validation. -/
def registeredForest : Forest where
  nodes := Registry.nodes
  trees := Registry.trees
  consistent := by decide +kernel
  applicable := by decide +kernel
  validated := by decide +kernel

end TrueAlpha
