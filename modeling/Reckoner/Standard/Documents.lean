import Reckoner.Evaluation.Registry

/-!
# The documentation of the standard functions
-/

namespace Reckoner
namespace Standard

/-- The help texts: the name in expressions, the name in prose, a summary and an explanation. -/
def helpTexts : List (String × String × String × String) :=
  [("abs", "Absolute Value",
      "Distance of a number from zero.",
      "Negative inputs lose their sign; everything else is returned as is.\n\nabs(-2) = 2"),
    ("exp", "Exponential",
      "e raised to the given power.",
      "The inverse of ln. Summed as a power series until the remainder is below the " ++
      "representation's error bound.\n\nexp(1) = 2.718..."),
    ("ln", "Natural Logarithm",
      "Logarithm base e.",
      "Defined for positive arguments only. The argument is scaled by powers of two toward 1 " ++
      "before the series is summed.\n\nln(2.718...) = 1"),
    ("sqrt", "Square Root",
      "The non-negative square root.",
      "The non-negative number whose square is the argument. Negative arguments are " ++
      "rejected.\n\nsqrt(4) = 2"),
    ("sin", "Sine",
      "Sine of an angle in radians.",
      "sin(pi/6) = 0.5"),
    ("cos", "Cosine",
      "Cosine of an angle in radians.",
      "cos(pi/3) = 0.5"),
    ("tan", "Tangent",
      "Tangent of an angle in radians.",
      "Fails where the cosine is zero.\n\ntan(pi/4) = 1"),
    ("sec", "Secant",
      "Reciprocal of the cosine, in radians.",
      "sec(0) = 1"),
    ("csc", "Cosecant",
      "Reciprocal of the sine, in radians.",
      "csc(pi/2) = 1"),
    ("cot", "Cotangent",
      "Cosine over sine, in radians.",
      "cot(pi/4) = 1"),
    ("arcsin", "Arcsine",
      "Inverse sine, in radians.",
      "Accepts arguments in [-1, 1] and returns an angle in [-pi/2, pi/2].\n\narcsin(1) = 1.570..."),
    ("arccos", "Arccosine",
      "Inverse cosine, in radians.",
      "Accepts arguments in [-1, 1] and returns an angle in [0, pi].\n\narccos(0) = 1.570..."),
    ("arctan", "Arctangent",
      "Inverse tangent, in radians.",
      "Returns an angle in (-pi/2, pi/2).\n\narctan(1) = 0.785..."),
    ("arcsec", "Arcsecant",
      "Inverse secant, in radians.",
      "Accepts arguments with |x| >= 1.\n\narcsec(2) = 1.047..."),
    ("arccsc", "Arccosecant",
      "Inverse cosecant, in radians.",
      "Accepts arguments with |x| >= 1.\n\narccsc(2) = 0.523..."),
    ("arccot", "Arccotangent",
      "Inverse cotangent, in radians.",
      "Returns an angle in (0, pi).\n\narccot(0) = 1.570...")]

/-- The documentation of the standard functions, all of them functions of values. -/
def documentation : List Documentation :=
  helpTexts.map (fun (codeName, name, description, longDescription) =>
    ⟨codeName, name, description, longDescription, .value⟩)

end Standard
end Reckoner
