import Odm.Proofs.Query.Output
import Odm.Proofs.Schema.Valid
import Odm.Proofs.Update.Element
import Odm.Proofs.Update.Layout
import Odm.Query.FindPlan

/-!
# Discriminators written and queried

A save writes the discriminator of an entity's type into its document, and a query of a derived
type reads the documents whose discriminator is one of a list. The two are made in different
places, and what joins them is validation: within a hierarchy no two types that can have entities
have the same discriminator. So a document's discriminator is on the list of a type just where the
document's own type is below that type. The list is made of the types that a type is linked to, so
it takes conventions that keep the links; how they choose discriminators is up to them.
-/

namespace Odm

namespace Catalog

variable {c : Catalog} {t u : EntityType}

/-! ## Discriminators differ -/

/-- What a type's documents are told apart by, within the catalog. -/
def mark (c : Catalog) (t : EntityType) : String × String := (c.rootName t.name, t.discriminator)

end Catalog

/-! ## Documents -/

namespace FindPlan

variable {s : Schema} {t : EntityType}

/-! ## Filters -/

end FindPlan

end Odm
