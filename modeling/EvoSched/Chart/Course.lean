import EvoSched.Chart
import EvoSched.Run

set_option autoImplicit false

namespace EvoSched

/-- Best and mean fitness, makespan, and cost over the generations. -/
def courseCharts {α : Type} (history : List (Record α)) : List (LineChart α) :=
  let generations := history.map (·.generation)
  let line (label : String) (value : Record α → α) : Line α :=
    ⟨label, generations, history.map value⟩
  [⟨"Fitness", "", [line "best" (·.bestFitness), line "mean" (·.meanFitness)]⟩,
    ⟨"Makespan", "Generation", [line "makespan" (·.bestTime)]⟩,
    ⟨"Cost", "", [line "cost" (·.bestCost)]⟩]

end EvoSched
