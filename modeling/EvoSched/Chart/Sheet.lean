import EvoSched.Chart
import EvoSched.Scalar.Double
import EvoSched.Table

set_option autoImplicit false

namespace EvoSched

def BarChart.rows (chart : BarChart Float) : List (List String) :=
  (chart.labels.zip chart.bars).map fun (label, value) => [chart.title, label, Scalar.text value]

def Line.rows (axis : String) (line : Line Float) : List (List String) :=
  (line.generations.zip line.values).map fun (generation, value) =>
    [axis, line.label, toString generation, Scalar.text value]

def LineChart.rows (chart : LineChart Float) : List (List String) :=
  chart.lines.flatMap (Line.rows chart.valueLabel)

/-- A row for each bar, or for each point of a line. -/
def Figure.sheet : Figure Float → Table
  | bars charts => ⟨["chart", "label", "value"], charts.flatMap BarChart.rows⟩
  | lines charts => ⟨["axis", "line", "generation", "value"], charts.flatMap LineChart.rows⟩

end EvoSched
