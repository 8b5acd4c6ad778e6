import CryptoPay.Payments.Steps

/-!
# The blockchain scan queue

`apps/worker/src/queues/blockchain-scan.queue.ts`: one pass reads the cursor,
asks the adapter for the transfers of the new blocks, matches each of them and
then moves the cursor to the head it saw.
-/

namespace CryptoPay.Worker

open Async

variable {A : Signature}

/-- `tryMatchTransfer` (blockchain-scan.queue.ts, lines 75–120). -/
def tryMatchTransfer (transfer : TokenTransfer) : Action A Unit := matchTransfer transfer

/-- The part of `runBlockchainScan` from line 55 on: scan the blocks
    `fromBlock … latestBlock`. -/
def scanBlocks (adapter : BlockchainAdapter A) (network : String) (fromBlock latestBlock : ℤ) :
    Action A Unit := do
  let transfers ← adapter.getTokenTransfers fromBlock latestBlock
  matchTransfers transfers
  transaction [.blockchainScanCursorUpdate network latestBlock]

/-- `runBlockchainScan` (blockchain-scan.queue.ts, lines 36–64). -/
def runBlockchainScan (adapter : BlockchainAdapter A) (network : String) : Action A Unit := do
  let cursor ← (prisma (.blockchainScanCursorUpsert network) : Action A BlockchainScanCursor)
  let latestBlock ← adapter.getLatestBlock
  let fromBlock := cursor.lastScannedBlock + 1
  if latestBlock < fromBlock then
    return ()
  else
    scanBlocks adapter network fromBlock latestBlock

end CryptoPay.Worker
