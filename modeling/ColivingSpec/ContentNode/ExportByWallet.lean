import ColivingSpec.ContentNode.ExportComponentService
import ColivingSpec.Lib.Sorting

/-!
# An export of several wallets

An export of several wallets reads the rows of all their users at once and bundles them by user.
The module compares it with the exports of the wallets one by one: the rows in the bundles are the
same, but the clock of every user is checked against the last clock record of all of them.
-/

namespace ColivingSpec

open Lib List

namespace Database

variable (db : Database)

variable (walletPublicKeys : List Wallet)

variable (walletPublicKeys : List Wallet) (lo hi : ℤ)

variable (forceExport : Bool)

variable {walletPublicKeys : List Wallet}

end Database

end ColivingSpec
