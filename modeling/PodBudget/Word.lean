/-! The ranges of machine words, for the numbers that have to fit one. -/
namespace PodBudget.Word

def most : Nat := 0xFFFFFFFFFFFFFFFF

def leastSigned : Int := -0x8000000000000000

def mostSigned : Int := 0x7FFFFFFFFFFFFFFF

def most32 : Nat := 0xFFFFFFFF

def most16 : Nat := 0xFFFF

end PodBudget.Word
