import Mathlib.Data.Nat.Notation

/-!
# Errors

The error classes of `packages/shared/src/errors/app-error.ts`, and the two
foreign kinds that the modelled code lets through: errors of the Prisma client
and of the RPC client.
-/

namespace CryptoPay

/-- The Prisma error codes that the modelled queries can raise. -/
inductive PrismaErrorCode where
  /-- `P2002`: a unique constraint failed. -/
  | uniqueConstraint
  /-- `P2003`: a foreign key constraint failed. -/
  | foreignKey
  /-- `P2025`: the record to update does not exist. -/
  | recordNotFound
  /-- A value does not fit its column (Postgres `numeric field overflow`). -/
  | valueOutOfRange
  /-- The database could not be reached, or the query timed out. -/
  | connection
  deriving DecidableEq, Repr

/-- A thrown error. The `AppError` subclasses of app-error.ts (lines 30–77),
    then the errors of the two clients. -/
inductive Error where
  | validation (message : String)
  | unauthorized (message : String)
  | forbidden (message : String)
  | notFound (message : String)
  | conflict (message : String)
  | rateLimited (message : String)
  | internal (message : String)
  /-- `details` is `{ from, to }`. -/
  | invalidStateTransition (message : String) (source target : String)
  | prisma (code : PrismaErrorCode)
  | rpc
  deriving DecidableEq, Repr

/-- `error instanceof InvalidStateTransitionError`. -/
def Error.IsInvalidStateTransition : Error → Prop
  | .invalidStateTransition .. => True
  | _ => False

instance : DecidablePred Error.IsInvalidStateTransition := fun e => by
  cases e <;> simp only [Error.IsInvalidStateTransition] <;> infer_instance

end CryptoPay
