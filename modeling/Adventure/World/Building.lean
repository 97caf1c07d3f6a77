/-
Building worlds from operations.
-/
import Adventure.Execution
import Adventure.World.Change

namespace Adventure

namespace World

/-- The executor that builds a world. -/
def builder (s : Surroundings) : Executor World where
  action? := change? s
  setEntity name property value := changeEntity name (setProperty s property value)
  setClass name property value := changeClass name (setProperty s property value)
  setPlayer property value := changePlayer (setProperty s property value)
  setGame property value := setGameProperty s property value
  finish := modify scheduleJobs

end World

/-- A world in the making, from nothing. -/
def Execution.emptyWorld : Execution World :=
  .start .empty

end Adventure
