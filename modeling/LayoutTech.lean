import LayoutTech.Main
import LayoutTech.Proofs.Grids.Rewriting
import LayoutTech.Proofs.Path.Resolution
import LayoutTech.Proofs.Registry.Callers
import LayoutTech.Proofs.Registry.Collisions
import LayoutTech.Proofs.Registry.Exporting
import LayoutTech.Proofs.Registry.Loading
import LayoutTech.Proofs.Registry.Rejections
import LayoutTech.Proofs.Technology.Blocks
import LayoutTech.Proofs.Technology.Relaying
import LayoutTech.Proofs.LayoutOptions.Changes
import LayoutTech.Proofs.Grids.Marking
import LayoutTech.Proofs.Grids.Respelling
import LayoutTech.Proofs.Xml.SingleRoot
import LayoutTech.Proofs.Xml.Presentation
