import Percolator.Error

/-!
# Settings of the engines that put verdicts off
-/

namespace Percolator

/-- The settings of a pool of workers. -/
structure PoolSettings where
  /-- The number of workers. -/
  threads : Nat := 1
  /-- How many messages may wait for a worker. -/
  capacity : Nat := 1024
deriving DecidableEq, Repr, Inhabited

namespace PoolSettings

/-- The settings, unless they cannot be used. -/
def validate (s : PoolSettings) : Except Error PoolSettings :=
  if s.threads = 0 then .error .noThreads
  else if s.capacity = 0 then .error .noQueue
  else .ok s

end PoolSettings

/-- The settings of a run in packages. -/
structure PackageSettings where
  /-- The number of candidates in a package. -/
  size : Nat := 1000
  /-- How many packages may run at the same time. -/
  maxThreads : Option Nat := none
deriving DecidableEq, Repr, Inhabited

namespace PackageSettings

/-- How many packages out of `packages` run at the same time. -/
def threadsFor (s : PackageSettings) (packages : Nat) : Nat :=
  max 1 (s.maxThreads.elim packages (min packages))

/-- The settings, unless they cannot be used. -/
def validate (s : PackageSettings) : Except Error PackageSettings :=
  if s.size = 0 then .error .noPackageSize
  else if s.maxThreads = some 0 then .error .noThreads
  else .ok s

end PackageSettings

end Percolator
