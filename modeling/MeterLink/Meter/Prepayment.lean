import MeterLink.Meter.Reading

/-!
# Prepayment

The balance of a meter, whether it runs on credit paid in advance, the tokens that add credit,
and the log of payments. Prepayment is only switched on when the balance suffices.
-/

namespace MeterLink.Meter

def balance : ClientM Amount :=
  readAmount "prepay_balance"

def prepaymentEnabled : ClientM Bool := do
  return (← readUnsigned "prepay_enabled_flag") == 1

/-- The least balance with which prepayment may be switched on. -/
def minimumBalance : Amount := .ofUnits 1000000

/-- Switches prepayment on or off. -/
def enablePrepayment (enabled : Bool) : ClientM Unit := do
  if enabled then
    let credit ← balance
    if credit < minimumBalance then
      throw (.argument (.lowBalance credit minimumBalance))
  writeNamed "prepay_enabled_flag" [if enabled then 1 else 0]

/-- Characters of a token. -/
def tokenLength : Nat := 20

/-- Adds the credit of a token. -/
def sendToken (token : String) : ClientM Unit := do
  if isAscii token ∧ token.length = tokenLength then
    writeNamed "prepay_token_send" (asciiBytes token)
  else throw (.argument (.badToken token))

def paymentCount : ClientM UInt32 :=
  readUnsigned "monetary_info_transaction_count"

def payment : ClientM Payment :=
  readNamed (fun | .payment p => some p | _ => none) "monetary_info_transaction_details"

end MeterLink.Meter
