import ImageCatalog.Catalog.Criteria
import ImageCatalog.Dataset.Basic
import ImageCatalog.Proofs.Catalog.Consistency
import ImageCatalog.Proofs.Query.Running
import ImageCatalog.Proofs.Query.Membership
import ImageCatalog.Proofs.Catalog.Faults
import ImageCatalog.Proofs.Catalog.Narrowing
import ImageCatalog.Proofs.Catalog.Steps
import ImageCatalog.Proofs.Dataset.Uniqueness
import ImageCatalog.Proofs.Dataset.Reloading
import ImageCatalog.Proofs.Dataset.ImageFiles
import ImageCatalog.Proofs.Dataset.Replacing
import ImageCatalog.Proofs.Dataset.Filtering
import ImageCatalog.Proofs.Dataset.Copying
import ImageCatalog.Proofs.Value.Numbers
import ImageCatalog.Proofs.Query.Ordering
import ImageCatalog.Proofs.Catalog.IntegerKeys
import ImageCatalog.Proofs.Catalog.Rereading
import ImageCatalog.Proofs.Query.Joining
import ImageCatalog.Proofs.Query.Conjunction
import ImageCatalog.Proofs.Query.Leaves
import ImageCatalog.Proofs.Query.Grammar
import ImageCatalog.Proofs.Query.Rendering
import ImageCatalog.Proofs.Query.FirstSeen
import ImageCatalog.Proofs.Json.Scaling
import ImageCatalog.Proofs.Json.Floats
