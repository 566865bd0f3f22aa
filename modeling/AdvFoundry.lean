import AdvFoundry.Evm.Tx
import AdvFoundry.Evm.Ledger
import AdvFoundry.Evm.Run
import AdvFoundry.Evm.Machine
import AdvFoundry.Evm.Recorder
import AdvFoundry.Evm.Abi
import AdvFoundry.Sampling.Modulo
import AdvFoundry.Merkle.Tree
import AdvFoundry.Json.Basic
import AdvFoundry.Json.RoundTrip
import AdvFoundry.Json.Grammar
import AdvFoundry.Encoding.Base64
import AdvFoundry.OpenZeppelin.ERC20
import AdvFoundry.OpenZeppelin.Access
import AdvFoundry.OpenZeppelin.Renaming
import AdvFoundry.OpenZeppelin.ERC721
import AdvFoundry.OpenZeppelin.EnumerableSet
import AdvFoundry.Chainlink.Feed
import AdvFoundry.Chainlink.Vrf
import AdvFoundry.Chainlink.Subscriptions
import AdvFoundry.Chainlink.Coordinator
import AdvFoundry.Chainlink.Effects
import AdvFoundry.Chainlink.Books
import AdvFoundry.Chainlink.History
import AdvFoundry.Chainlink.Lifecycle
import AdvFoundry.Chainlink.Deliverable
import AdvFoundry.Dsc.Coin
import AdvFoundry.Dsc.Engine
import AdvFoundry.Dsc.Health
import AdvFoundry.Dsc.Effects
import AdvFoundry.Dsc.System
import AdvFoundry.Dsc.Positions
import AdvFoundry.Dsc.Liquidation
import AdvFoundry.Dsc.Frame
import AdvFoundry.Dsc.Custody
import AdvFoundry.Dsc.Supply
import AdvFoundry.Dsc.Solvency
import AdvFoundry.Dsc.Oracle
import AdvFoundry.Dsc.Commute
import AdvFoundry.Dsc.Payout
import AdvFoundry.Dsc.Limits
import AdvFoundry.Dsc.Conversion
import AdvFoundry.Dsc.Listing
import AdvFoundry.Drs.Coin
import AdvFoundry.Drs.Engine
import AdvFoundry.Drs.System
import AdvFoundry.Drs.Custody
import AdvFoundry.Drs.Effects
import AdvFoundry.Drs.Agreement
import AdvFoundry.Drs.Repayment
import AdvFoundry.Drs.Backing
import AdvFoundry.Drs.Solvency
import AdvFoundry.Lottery.Raffle
import AdvFoundry.Lottery.Requests
import AdvFoundry.Lottery.Prizes
import AdvFoundry.Lottery.Fairness
import AdvFoundry.Rebase.Token
import AdvFoundry.Rebase.Accounting
import AdvFoundry.Rebase.Vault
import AdvFoundry.Rebase.Solvency
import AdvFoundry.Rebase.Reentrancy
import AdvFoundry.Interest.Discount
import AdvFoundry.Rebase.PresentValue
import AdvFoundry.Rebase.Rates
import AdvFoundry.Rebase.Interest
import AdvFoundry.Funding.FundMe
import AdvFoundry.Funding.Ledger
import AdvFoundry.Funding.Minimum
import AdvFoundry.Nft.Token
import AdvFoundry.Nft.Basic
import AdvFoundry.Nft.Dynamic
import AdvFoundry.Nft.Metadata
import AdvFoundry.Airdrop.Merkle
import AdvFoundry.Airdrop.Claims
import AdvFoundry.Airdrop.Typed
import AdvFoundry.Airdrop.Script
import AdvFoundry.Airdrop.Leaves
import AdvFoundry.Airdrop.Whitelist
import AdvFoundry.Airdrop.Soundness
import AdvFoundry.Airdrop.Output
