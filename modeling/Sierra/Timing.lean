import Sierra.Text.Fixed

/-!
# Reports of times

How long the parts of some work took, in milliseconds with two decimals.
-/

namespace Sierra.Timing

structure Millis where
  num : Int
  den : Nat := 1

def Millis.ofMicros (micros : Int) : Millis := ⟨micros, 1000⟩

def Millis.text (t : Millis) (places : Nat) : String :=
  Text.fixed places (t.num < 0) t.num.natAbs t.den

structure Phase where
  name : String
  time : Millis
  note : String := ""

structure Report where
  phases : List Phase
  total : Millis

namespace Report

def phase? (r : Report) (name : String) : Option Phase := r.phases.find? fun p => p.name == name

def line (name : String) (time : Millis) (note : String) : String :=
  Text.padRight 22 name ++ " " ++ Text.padLeft 8 (time.text 2) ++ " ms" ++
    (if note = "" then "" else "  " ++ note) ++ "\n"

def text (r : Report) : String :=
  String.join (r.phases.map fun p => line p.name p.time p.note) ++ line "total" r.total ""

end Report

end Sierra.Timing
