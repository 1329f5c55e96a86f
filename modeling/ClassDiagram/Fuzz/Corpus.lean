/-!
# The corpus

The inputs a fuzzing run starts from: one or more valid documents for every construct.  The corpus
grows by inputs that showed something, up to a limit.
-/

namespace ClassDiagram.Fuzz

def seedCorpus : List String :=
  ["class A",
   "class A \x7b \x7d",
   "class A \x7b x \x7d",
   "class A \x7b -x: int \x7d",
   "class A \x7b +x: int[] = zero \x7d",
   "class A \x7b #run() \x7d",
   "class A \x7b ~run(x: int, y: int): bool[] \x7d",
   "class A \x7b run(x,) \x7d",
   "class A \x7b run(x = 1 y: int) : void \x7d",
   "interface Shape",
   "A --|> B",
   "A <|-- B",
   "A ..|> B",
   "A *-- B",
   "A o-- B",
   "A --> B",
   "A ..> B",
   "A -- B",
   "A \"1\" --|> \"many\" B : \"extends\"",
   "A \"0..1\" *-- B",
   "A --> \"*\" B : \"owns\"",
   "class A \x7b -items: Item[] +add(item: Item): bool \x7d interface I A ..|> I",
   "class A // trailing comment\nclass B"]

/-- The most inputs a corpus may hold and still grow. -/
def maxCorpus : Nat := 1000

/-- The corpus with an input that showed something. -/
def grow (corpus : List String) (input : String) : List String :=
  if corpus.length < maxCorpus then corpus ++ [input] else corpus

end ClassDiagram.Fuzz
